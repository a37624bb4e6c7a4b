import GmlLayout.Proofs.Layout.Level

/-!
Expressions keep to the bounds. Brackets undo the step they make, a frame brings the indentation back
whatever is done in it, and a grouping goes one deeper only if it answers a request.
-/

namespace GmlLayout

namespace Page

/-- A tidy page that keeps to the bounds, with few line breaks at its end. -/
structure Within (bounds : Bounds) (rows : Nat) (page : Page) : Prop where
  tidy : page.Tidy
  nonneg : 0 ≤ page.indentation
  admitted : bounds.Admits page.indentation page.groupRequests.length
  requests : page.groupRequests.length ≤ bounds.requests
  frames : page.frames = bounds.frames
  rows : page.buffer.breaks ≤ rows

def Poised (bounds : Bounds) (rows : Nat) (page : Page) : Prop :=
  page.Begun ∧ page.Within bounds rows

def Framed (bounds : Bounds) (rows : Nat) (page : Page) : Prop :=
  ∃ indentation pending, 0 ≤ indentation ∧ bounds.Admits indentation pending ∧ pending ≤ bounds.requests ∧
    page.Poised (bounds.frame indentation pending) rows

variable {bounds : Bounds} {rows : Nat} {page : Page}

theorem Within.stay (within : page.Within bounds rows) {later : Page} (tidy : later.Tidy)
    (same : SameLevel page later) {count : Nat} (few : later.buffer.breaks ≤ count) : later.Within bounds count where
  tidy := tidy
  nonneg := by
    rw [same.indentation]
    exact within.nonneg
  admitted := by
    rw [same.indentation, same.requests]
    exact within.admitted
  requests := by
    rw [same.requests]
    exact within.requests
  frames := same.frames.trans within.frames
  rows := few

theorem Within.forget (within : page.Within bounds rows) : page.Within bounds 2 :=
  within.stay within.tidy (.refl page) within.tidy.neat.breaks_le_two

theorem Within.relax (within : page.Within bounds rows) {count : Nat} (le : rows ≤ count) :
    page.Within bounds count :=
  within.stay within.tidy (.refl page) (Nat.le_trans within.rows le)

theorem Poised.forget (poised : page.Poised bounds rows) : page.Poised bounds 2 :=
  ⟨poised.1, poised.2.forget⟩

theorem Poised.relax (poised : page.Poised bounds rows) {count : Nat} (le : rows ≤ count) :
    page.Poised bounds count :=
  ⟨poised.1, poised.2.relax le⟩

theorem indentationAfter_nonneg (nonneg : 0 ≤ page.indentation) (move : Move) :
    0 ≤ page.indentationAfter move := by
  cases move <;> simp only [indentationAfter] <;> omega

theorem indentationAfter_of_ne (nonneg : 0 ≤ page.indentation) {move : Move} (stays : move ≠ .right) :
    page.indentationAfter move ≤ page.indentation := by
  cases move with
  | right => exact absurd rfl stays
  | stay => exact Int.le_refl _
  | left =>
    show max (page.indentation - 1) 0 ≤ page.indentation
    omega

theorem indentationAfter_le (nonneg : 0 ≤ page.indentation) (move : Move) :
    page.indentationAfter move ≤ page.indentation + 1 := by
  cases move <;> simp only [indentationAfter] <;> omega

theorem admits_left {indentation : Int} {pending : Nat} (admits : bounds.deeper.Admits indentation pending) :
    bounds.Admits (max (indentation - 1) 0) pending := by
  intro limit isLimit
  have room := Bounds.admits_deeper.mp admits limit isLimit
  omega

theorem Within.left {later : Page} (within : page.Within bounds.deeper rows) (tidy : later.Tidy)
    (level : later.indentation = page.indentationAfter .left)
    (requests : later.groupRequests = page.groupRequests) (frames : later.frames = page.frames)
    {count : Nat} (few : later.buffer.breaks ≤ count) : later.Within bounds count where
  tidy := tidy
  nonneg := by
    rw [level]
    exact indentationAfter_nonneg within.nonneg .left
  admitted := by
    rw [level, requests]
    exact admits_left within.admitted
  requests := by
    rw [requests]
    exact within.requests
  frames := frames.trans within.frames
  rows := few

theorem Within.started (within : page.Within bounds rows) {outer : Bounds} (move : Move)
    (requests : outer.requests = bounds.requests) (frames : outer.frames = bounds.frames)
    (admits : outer.Admits (page.newline move).indentation page.groupRequests.length) :
    (page.newline move).Within outer (rows + 1) := by
  obtain ⟨sameRequests, sameFrames⟩ := page.newline_requests move
  refine ⟨(moves_newline within.tidy move).kept.tidy, ?_, ?_, ?_, ?_, ?_⟩
  · obtain ⟨_, same⟩ | same := indentation_newline within.tidy move
    · rw [same]
      exact within.nonneg
    · rw [same]
      exact indentationAfter_nonneg within.nonneg move
  · rw [sameRequests]
    exact admits
  · rw [sameRequests, requests]
    exact within.requests
  · rw [sameFrames, frames]
    exact within.frames
  · exact Nat.le_trans (breaks_newline within.tidy move) (Nat.succ_le_succ within.rows)

theorem Reaches.nonneg {how : Instruction} {slot : Trivia} {moved : Bool} {later : Page}
    (reaches : Reaches how slot page moved later) (nonneg : 0 ≤ page.indentation) : 0 ≤ later.indentation := by
  have after := indentationAfter_nonneg nonneg how.move
  cases moved with
  | false =>
    rw [reaches.stays rfl]
    exact nonneg
  | true =>
    obtain ⟨_, same⟩ | same | ⟨_, _, deep, _⟩ := reaches.goes rfl
    · rw [same]
      exact nonneg
    · rw [same]
      exact after
    · exact Int.le_trans after deep

theorem hint_admitted {framed : Bool} (unframed : framed = false → bounds.frames = []) {slot : Trivia}
    (fit : bounds.Passes fun depth => slotWithin framed depth slot) (isFramed : bounds.frames ≠ [])
    {token : Token} (member : token ∈ slot) (breaks : token.isNewline = true) (pending : Nat) :
    bounds.Admits token.indentHint pending := by
  intro limit isLimit
  obtain ⟨depth, le, within⟩ := fit limit isLimit
  cases framed with
  | false => exact absurd (unframed rfl) isFramed
  | true =>
    have shallow := indentHint_le within member breaks
    omega

theorem Within.reached (within : page.Within bounds rows) {how : Instruction} {slot : Trivia} {moved : Bool}
    {later : Page} (reaches : Reaches how slot page moved later) (tidy : later.Tidy) {count : Nat}
    (few : later.buffer.breaks ≤ count) {outer : Bounds} (requests : outer.requests = bounds.requests)
    (frames : outer.frames = bounds.frames)
    (admits : outer.Admits later.indentation page.groupRequests.length) : later.Within outer count where
  tidy := tidy
  nonneg := reaches.nonneg within.nonneg
  admitted := by
    rw [reaches.requests]
    exact admits
  requests := by
    rw [reaches.requests, requests]
    exact within.requests
  frames := by
    rw [reaches.frames, frames]
    exact within.frames
  rows := few

end Page

namespace Print

open Page

variable {α : Type} {bounds : Bounds} {rows : Nat}

theorem Brings.poised {action : Print α} {later : α → Bounds} {count : α → Nat} (inner : Inner action)
    (brings : Brings (Within bounds rows) action fun value => Within (later value) (count value)) :
    Brings (Poised bounds rows) action fun value => Poised (later value) (count value) :=
  fun page poised => ⟨(inner page poised.2.tidy poised.1).2, brings page poised.2⟩

theorem Brings.within {action : Print α} {pre : Page → Prop} {count : Nat}
    (brings : Brings pre action fun _ => Poised bounds count) :
    Brings pre action fun _ => Within bounds count :=
  brings.behind fun _ _ => And.right

theorem Brings.assuming {action : Print α} {fact : Prop} {pre : Page → Prop} {post : α → Page → Prop}
    (brings : fact → Brings pre action post) : Brings (fun page => fact ∧ pre page) action post :=
  fun page holds => brings holds.1 page holds.2

theorem Brings.each {action : Print α} {ι : Type} {kept : ι → Prop} {pre : ι → Page → Prop}
    {post : ι → α → Page → Prop} (brings : ∀ index, kept index → Brings (pre index) action (post index)) :
    Brings (fun page => ∃ index, kept index ∧ pre index page) action
      fun value page => ∃ index, kept index ∧ post index value page := by
  rintro page ⟨index, keeps, holds⟩
  exact ⟨index, keeps, brings index keeps page holds⟩

theorem within_fields {change : Page → Page} (quiet : Quiet (modify change))
    (same : ∀ page, SameLevel page (change page)) (buffer : ∀ page, (change page).buffer = page.buffer) :
    Brings (Within bounds rows) (modify change) fun _ => Within bounds rows := by
  intro page within
  refine within.stay (quiet page within.tidy trivial).1.kept.tidy (same page) ?_
  show (change page).buffer.breaks ≤ rows
  rw [buffer]
  exact within.rows

theorem within_exempt : Brings (Within bounds rows) (modify exempt) fun _ => Within bounds rows :=
  within_fields quiet_exempt (fun _ => ⟨rfl, rfl, rfl⟩) fun _ => rfl

theorem within_requestBlock (request : BlockRequest) :
    Brings (Within bounds rows) (modify fun page => page.requestBlock request) fun _ => Within bounds rows :=
  within_fields (quiet_requestBlock request) (fun _ => ⟨rfl, rfl, rfl⟩) fun _ => rfl

theorem within_openChain : Brings (Within bounds rows) openChain fun _ => Within bounds rows :=
  fun page within =>
    within.stay (quiet_openChain page within.tidy trivial).1.kept.tidy ⟨rfl, rfl, rfl⟩ within.rows

theorem within_closeChain (outermost : Bool) :
    Brings (Within bounds rows) (closeChain outermost) fun _ => Within bounds rows := by
  cases outermost with
  | false => exact fun _ within => within
  | true =>
    exact fun page within =>
      within.stay (quiet_closeChain true page within.tidy trivial).1.kept.tidy ⟨rfl, rfl, rfl⟩ within.rows

theorem within_write {content : String} (shown : Fragment.ofText content = .text content) (spaceAfter : Bool) :
    Brings (Within bounds rows) (write content spaceAfter) fun _ => Poised bounds 0 :=
  fun page within => ⟨begun_write content spaceAfter,
    within.stay (moves_write within.tidy shown spaceAfter).kept.tidy (page.sameLevel_write content spaceAfter)
      (Nat.le_of_eq (page.breaks_write shown spaceAfter))⟩

theorem poised_write {content : String} (shown : Fragment.ofText content = .text content) (spaceAfter : Bool) :
    Brings (Poised bounds rows) (write content spaceAfter) fun _ => Poised bounds 0 :=
  (within_write shown spaceAfter).before fun _ => And.right

theorem within_dropSpace : Brings (Within bounds rows) dropSpace fun _ => Within bounds rows := by
  intro page within
  refine within.stay (moves_dropSpace within.tidy).kept.tidy ⟨rfl, rfl, rfl⟩ ?_
  exact Nat.le_trans (Nat.le_of_eq within.tidy.neat.breaks_dropSpace) within.rows

theorem poised_dropSpace : Brings (Poised bounds rows) dropSpace fun _ => Poised bounds rows :=
  within_dropSpace.poised quiet_dropSpace.inner

theorem poised_dropBlanks : Brings (Poised bounds rows) dropBlanks fun _ => Poised bounds 0 :=
  Brings.poised quiet_dropBlanks.inner fun _ within =>
    within.stay (moves_dropBlanks within.tidy).kept.tidy ⟨rfl, rfl, rfl⟩
      (Nat.le_of_eq (breaks_dropBlanks within.tidy))

theorem poised_ensureSpace : Brings (Poised bounds rows) ensureSpace fun _ => Poised bounds rows := by
  intro page poised
  have moves := moves_ensureSpace poised.2.tidy poised.1
  refine ⟨moves.kept.begun poised.1, poised.2.stay moves.kept.tidy page.sameLevel_ensureSpace ?_⟩
  rw [breaks_ensureSpace]
  exact poised.2.rows

theorem within_newline_stay : Brings (Within bounds rows) (newline .stay) fun _ => Within bounds (rows + 1) := by
  intro page within
  refine within.stay (moves_newline within.tidy .stay).kept.tidy page.sameLevel_newline_stay ?_
  exact Nat.le_trans (breaks_newline within.tidy .stay) (Nat.succ_le_succ within.rows)

theorem poised_newline_stay : Brings (Poised bounds rows) (newline .stay) fun _ => Poised bounds (rows + 1) :=
  within_newline_stay.poised (quiet_newline .stay).inner

theorem poised_newline_right :
    Brings (Poised bounds rows) (newline .right) fun _ => Poised bounds.deeper (rows + 1) := by
  refine Brings.poised (quiet_newline .right).inner fun page within => within.started .right rfl rfl ?_
  rw [Bounds.admits_deeper]
  obtain ⟨_, same⟩ | same := indentation_newline within.tidy .right
  · rw [same]
    exact within.admitted.less (by omega)
  · rw [same]
    exact within.admitted.less (by simp only [indentationAfter]; omega)

theorem poised_newline_left (few : ∀ limit, bounds.limit = some limit → rows < 2) :
    Brings (Poised bounds.deeper rows) (newline .left) fun _ => Poised bounds (rows + 1) := by
  intro page poised
  refine ⟨(moves_newline poised.2.tidy .left).kept.begun poised.1, poised.2.started .left rfl rfl ?_⟩
  intro limit isLimit
  obtain ⟨two | none, _⟩ | same := indentation_newline poised.2.tidy .left
  · exact absurd (Nat.le_trans two poised.2.rows) (Nat.not_le_of_lt (few limit isLimit))
  · exact absurd poised.1 none
  · rw [same]
    exact admits_left poised.2.admitted limit isLimit

theorem poised_setIndentation_left :
    Brings (Poised bounds rows) (modify fun page => page.setIndentation .left) fun _ => Poised bounds rows := by
  refine Brings.poised (quiet_setIndentation .left).inner fun page within => ?_
  have nonneg := within.nonneg
  refine ⟨(moves_setIndentation within.tidy .left).kept.tidy, indentationAfter_nonneg nonneg .left, ?_,
    within.requests, within.frames, within.rows⟩
  refine within.admitted.less ?_
  show max (page.indentation - 1) 0 ≤ page.indentation
  omega

/-- On a blank line the step to the left is always taken, and elsewhere there is no blank line above. -/
theorem poised_stepBack : Brings (Poised bounds.deeper rows) stepBack fun _ => Poised bounds (max 1 rows) := by
  intro page poised
  have few := poised.2.rows
  have kept := (moves_stepBack poised.2.tidy poised.1).kept
  show Poised bounds (max 1 rows) (if page.onBlankLine then page.dropLine.indent .left else page.newline .left)
  by_cases blank : page.onBlankLine = true
  · rw [if_pos blank] at kept ⊢
    have below := breaks_pos poised.2.tidy poised.1 blank
    have ends : (page.dropLine.indent .left).buffer.breaks = page.buffer.breaks :=
      (breaks_writeMargin (page.dropLine.setIndentation .left) poised.2.tidy.tabs).trans
        (Buffer.breaks_dropLine_of_breaks below)
    exact ⟨kept.begun poised.1, poised.2.left kept.tidy rfl rfl rfl
      (by rw [ends]; exact Nat.le_trans few (Nat.le_max_right _ _))⟩
  · rw [if_neg blank]
    have none : page.buffer.breaks = 0 := by
      have shown := mt poised.2.tidy.neat.onBlankLine_iff.mpr blank
      omega
    have alone : page.Poised bounds.deeper 0 :=
      ⟨poised.1, poised.2.stay poised.2.tidy (.refl page) (Nat.le_of_eq none)⟩
    exact (poised_newline_left (fun _ _ => by decide) page alone).relax (Nat.le_max_left 1 rows)

theorem poised_closing {moved : Bool} {step : Print Unit} {rest : Unit → Print α} {post : α → Page → Prop}
    {count : Nat} (back : moved = true → Brings (Poised bounds.deeper rows) step fun _ => Poised bounds count)
    (le : rows ≤ count) (further : Brings (Poised bounds count) (rest ()) post) :
    Brings (Poised (bounds.inside moved) rows) (if moved then step >>= rest else rest ()) post := by
  refine .optional (Poised bounds count) (fun taken => ?_) (fun passed page poised => ?_) further
  · rw [taken]
    exact back taken
  · rw [Bool.not_eq_true] at passed
    rw [passed] at poised
    exact poised.relax le

theorem poised_openFrame : Brings (Poised bounds rows) (modify openFrame) fun _ => Framed bounds rows := by
  intro page poised
  have tidy := (quiet_openFrame page poised.2.tidy trivial).1.kept.tidy
  refine ⟨page.indentation, page.groupRequests.length, poised.2.nonneg, poised.2.admitted, poised.2.requests,
    poised.1, tidy, poised.2.nonneg, nofun, Nat.le_refl _, ?_, poised.2.rows⟩
  exact congrArg (page.indentation :: ·) poised.2.frames

theorem poised_closeFrame : Brings (Framed bounds rows) (modify closeFrame) fun _ => Poised bounds rows := by
  rintro page ⟨indentation, pending, nonneg, admits, few, begun, within⟩
  have tidy : page.closeFrame.Tidy := (quiet_closeFrame page within.tidy trivial).1.kept.tidy
  have framed : page.frames = indentation :: bounds.frames := within.frames
  have closed : page.closeFrame = { page with indentation := indentation, frames := bounds.frames } := by
    unfold closeFrame
    rw [framed]
  show page.closeFrame.Poised bounds rows
  rw [closed] at tidy ⊢
  exact ⟨begun, tidy, nonneg, admits.answered within.requests, Nat.le_trans within.requests few, rfl, within.rows⟩

theorem Brings.framed {action : Print α} {count : Nat}
    (each : ∀ inner : Bounds, inner.limit = none →
      Brings (Poised inner rows) action fun _ => Poised inner count) :
    Brings (Framed bounds rows) action fun _ => Framed bounds count := by
  rintro page ⟨indentation, pending, nonneg, admits, few, poised⟩
  exact ⟨indentation, pending, nonneg, admits, few, each _ rfl page poised⟩

section

variable {drawn : Token → Prop} (shown : ∀ token, drawn token → token.kind ≠ .newline → token.Shown)
  {framed : Bool} (unframed : framed = false → bounds.frames = [])

include shown

theorem within_word {token : Token} (formed : WordFormed drawn token) (spaceAfter : Bool) :
    Brings (Within bounds rows) (writeToken token spaceAfter) fun _ => Poised bounds 0 :=
  within_write (shown token formed.1 formed.2) spaceAfter

theorem poised_word {token : Token} (formed : WordFormed drawn token) (spaceAfter : Bool) :
    Brings (Poised bounds rows) (writeToken token spaceAfter) fun _ => Poised bounds 0 :=
  poised_write (shown token formed.1 formed.2) spaceAfter

include unframed

theorem poised_trivia {slot : Trivia} (formed : SlotFormed drawn slot) {how : Instruction}
    (stays : how.move ≠ .right)
    (fit : how.respect = true → bounds.Passes fun depth => slotWithin framed depth slot) :
    Brings (Poised bounds rows) (trivia slot how) fun _ => Poised bounds (slotRows how.respect rows slot) := by
  intro page poised
  obtain ⟨moves, _⟩ := movesTo_trivia shown formed how poised.2.tidy poised.1
  obtain ⟨reaches, few⟩ := trivia_reaches shown how formed poised.2.tidy poised.1 poised.2.rows
  refine ⟨moves.kept.begun poised.1, poised.2.reached reaches moves.kept.tidy few rfl rfl ?_⟩
  cases moved : (page.trivia slot how).1 with
  | false =>
    rw [reaches.stays moved]
    exact poised.2.admitted
  | true =>
    obtain ⟨_, same⟩ | same | ⟨isFramed, respect, _, token, member, isBreak, same⟩ := reaches.goes moved
    · rw [same]
      exact poised.2.admitted
    · rw [same]
      exact poised.2.admitted.less (indentationAfter_of_ne poised.2.nonneg stays)
    · rw [same]
      rw [poised.2.frames] at isFramed
      exact hint_admitted unframed (fit respect) isFramed member isBreak _

theorem poised_slot {slot : Trivia} (formed : SlotFormed drawn slot) {how : Instruction}
    (stays : how.move ≠ .right)
    (fit : how.respect = true → bounds.Passes fun depth => slotWithin framed depth slot) :
    Brings (Poised bounds rows) (Print.slot slot how) fun _ => Poised bounds (slotRows how.respect rows slot) :=
  fun page poised => poised_trivia shown unframed formed stays fit page poised

theorem poised_trivia_right {slot : Trivia} (formed : SlotFormed drawn slot) {how : Instruction}
    (right : how.move = .right)
    (fit : how.respect = true → bounds.Passes fun depth => slotWithin framed (depth + 1) slot) :
    Brings (Poised bounds rows) (trivia slot how)
      fun moved => Poised (bounds.inside moved) (slotRows how.respect rows slot) := by
  intro page poised
  obtain ⟨moves, _⟩ := movesTo_trivia shown formed how poised.2.tidy poised.1
  obtain ⟨reaches, few⟩ := trivia_reaches shown how formed poised.2.tidy poised.1 poised.2.rows
  refine ⟨moves.kept.begun poised.1, ?_⟩
  show Within (bounds.inside (page.trivia slot how).1) _ (page.trivia slot how).2
  cases moved : (page.trivia slot how).1 with
  | false =>
    refine poised.2.reached reaches moves.kept.tidy few rfl rfl ?_
    rw [reaches.stays moved]
    exact poised.2.admitted
  | true =>
    refine poised.2.reached reaches moves.kept.tidy few rfl rfl ?_
    obtain ⟨_, same⟩ | same | ⟨isFramed, respect, _, token, member, isBreak, same⟩ := reaches.goes moved
    · rw [same, Bounds.inside_true, Bounds.admits_deeper]
      exact poised.2.admitted.less (by omega)
    · rw [same, right, Bounds.inside_true, Bounds.admits_deeper]
      exact poised.2.admitted.less (by simp only [indentationAfter]; omega)
    · rw [same]
      rw [poised.2.frames] at isFramed
      exact @hint_admitted bounds.deeper framed unframed slot (fit respect).deeper isFramed token member isBreak _

theorem poised_open {afterOpen : Trivia} (formed : SlotFormed drawn afterOpen)
    (fit : bounds.Passes fun depth => slotWithin framed (depth + 1) afterOpen) :
    Brings (Poised bounds rows) (trivia afterOpen (.respecting .right .one))
      fun moved page => moved = afterOpen.any Token.isNewline ∧
        page.Poised (bounds.inside moved) (slotRows true rows afterOpen) :=
  fun page poised => ⟨moved_respecting afterOpen .right (by decide),
    poised_trivia_right shown unframed formed rfl (fun _ => fit) page poised⟩

theorem poised_closeExpression {trailing : Trivia} (formed : SlotFormed drawn trailing)
    (fit : bounds.Passes fun depth => slotWithin framed depth trailing) :
    Brings (Poised bounds rows) (closeExpression trailing)
      fun _ => Poised bounds (slotRows true rows trailing) := by
  refine (poised_slot shown unframed formed (by decide) fun _ => fit).bind fun _ => ?_
  exact Brings.poised quiet_setLineEnded.inner
    (within_fields quiet_setLineEnded (fun _ => ⟨rfl, rfl, rfl⟩) fun _ => rfl)

theorem poised_closeEntry (endDelimited broken isLast : Bool) {trailing : Trivia}
    (formed : SlotFormed drawn trailing)
    (fit : bounds.Passes fun depth => slotWithin framed depth trailing) :
    Brings (Poised bounds rows) (closeEntry endDelimited broken broken isLast trailing)
      fun _ => Poised bounds
        (slotRows true (if !isLast || endDelimited then 0 else rows) trailing + (if broken then 1 else 0)) := by
  have lineBreak : ∀ {count : Nat} {test : Bool}, (test = true → broken = true) →
      Brings (Poised bounds count) (if test then newline .stay else pure ())
        fun _ => Poised bounds (count + (if broken then 1 else 0)) := by
    intro count test taken
    refine .ite (fun isTest => ?_) fun _ => .pure fun page poised => poised.relax (Nat.le_add_right _ _)
    rw [if_pos (taken isTest)]
    exact poised_newline_stay
  unfold closeEntry
  refine poised_dropSpace.bind fun _ => ?_
  refine .optional (Poised bounds (if !isLast || endDelimited then 0 else rows)) (fun taken => ?_)
    (fun passed page poised => ?_) ?_
  · rw [if_pos taken]
    exact poised_write rfl true
  · rw [if_neg passed]
    exact poised
  · refine .ite (fun empty => ?_) fun _ => ?_
    · rw [List.isEmpty_iff.mp empty]
      exact lineBreak (by cases isLast <;> exact id)
    · refine (poised_trivia shown unframed formed (by decide) fun _ => fit).bind fun moved => ?_
      exact lineBreak fun both => (Bool.and_eq_true_iff.mp both).2

omit shown unframed in
theorem within_closeExpression_nil :
    Brings (Within bounds rows) (closeExpression []) fun _ => Within bounds rows :=
  fun page within =>
    within_fields quiet_setLineEnded (fun _ => ⟨rfl, rfl, rfl⟩) (fun _ => rfl) page within

omit shown unframed in
theorem poised_closeCall (moved : Bool) (arguments : List (Item Expr)) :
    Brings (Poised (bounds.inside moved) rows) (closeCall moved arguments)
      fun _ => Poised bounds (if passesLambda arguments then 1 else 0) := by
  unfold closeCall
  refine poised_dropBlanks.bind fun _ => ?_
  refine poised_closing (fun _ => poised_newline_left fun _ _ => by decide) (Nat.le_succ 0) ?_
  refine .ite (fun passes => ?_) fun keeps => ?_
  · rw [if_pos passes]
    exact (within_requestBlock _).poised (quiet_requestBlock _).inner
  · rw [if_neg keeps]
    exact poised_write rfl true

omit shown in
theorem answer_admitted {afterClose : Trivia}
    (fit : bounds.Passes fun depth => slotWithin framed (depth + 1) afterClose &&
      (bounds.stepping || !afterClose.any Token.isNewline))
    {page : Page} (within : page.Within bounds rows) {request : GroupRequest} {others : List GroupRequest}
    (pending : page.groupRequests = request :: others) {moved : Bool} {later : Page}
    (reaches : Reaches request.instruction afterClose { page with groupRequests := others } moved later) :
    bounds.Admits later.indentation others.length := by
  intro limit isLimit
  obtain ⟨depth, le, both⟩ := fit limit isLimit
  rw [Bool.and_eq_true, Bool.or_eq_true, Bool.not_eq_true'] at both
  have few := within.requests
  have room := within.admitted limit isLimit
  rw [pending, List.length_cons] at few room
  cases moved with
  | false =>
    have more := bounds.gained_mono (Nat.le_add_right others.length 1)
    rw [reaches.stays rfl]
    show page.indentation ≤ _
    omega
  | true =>
    obtain stepping | none := both.2
    · have one : bounds.gained (others.length + 1) + 1 = bounds.gained others.length := by
        simp only [Bounds.gained, stepping, if_true]
        omega
      have after := indentationAfter_le within.nonneg request.instruction.move
      obtain ⟨_, same⟩ | same | ⟨isFramed, _, _, token, member, isBreak, same⟩ := reaches.goes rfl
      · rw [same]
        show page.indentation ≤ _
        omega
      · rw [same]
        show page.indentationAfter request.instruction.move ≤ _
        omega
      · cases framed with
        | false => exact absurd (within.frames.trans (unframed rfl)) isFramed
        | true =>
          have shallow := indentHint_le both.1 member isBreak
          omega
    · rw [reaches.broken rfl] at none
      cases none

theorem poised_answer {afterClose : Trivia} (formed : SlotFormed drawn afterClose)
    (fit : bounds.Passes fun depth => slotWithin framed (depth + 1) afterClose &&
      (bounds.stepping || !afterClose.any Token.isNewline)) :
    Brings (Poised bounds rows) (do
        let request ← modifyGet Page.takeGroupRequest
        Print.slot afterClose request.instruction)
      fun _ page => page.groupRequests.length ≤ bounds.requests - 1 ∧
        page.Poised bounds (slotRows true rows afterClose) := by
  intro page poised
  show (Page.trivia page.takeGroupRequest.2 afterClose page.takeGroupRequest.1.instruction).2.groupRequests.length
    ≤ _ ∧ Poised _ _ (Page.trivia page.takeGroupRequest.2 afterClose page.takeGroupRequest.1.instruction).2
  unfold takeGroupRequest
  cases pending : page.groupRequests with
  | nil =>
    obtain ⟨reaches, _⟩ := trivia_reaches shown (GroupRequest.instruction {}) formed poised.2.tidy poised.1
      poised.2.rows
    have laid := @poised_slot _ rows _ shown _ unframed _ formed (GroupRequest.instruction {}) nofun
      nofun page poised
    refine ⟨?_, Poised.relax laid (slotRows_le rows afterClose)⟩
    rw [reaches.requests, pending]
    exact Nat.zero_le _
  | cons request others =>
    have tidy : ({ page with groupRequests := others } : Page).Tidy :=
      ⟨poised.2.tidy.tabs, poised.2.tidy.neat, poised.2.tidy.ended⟩
    have few := poised.2.requests
    obtain ⟨moves, _⟩ := movesTo_trivia shown formed request.instruction tidy poised.1
    obtain ⟨reaches, ends⟩ := trivia_reaches shown request.instruction formed tidy poised.1 poised.2.rows
    rw [pending, List.length_cons] at few
    refine ⟨?_, moves.kept.begun poised.1, moves.kept.tidy, reaches.nonneg poised.2.nonneg, ?_, ?_,
      reaches.frames.trans poised.2.frames, Nat.le_trans ends ?_⟩
    · rw [reaches.requests]
      exact Nat.le_sub_one_of_lt few
    · rw [reaches.requests]
      exact answer_admitted unframed fit poised.2 pending reaches
    · rw [reaches.requests]
      exact Nat.le_of_succ_le few
    · cases request.instruction.respect with
      | false => exact slotRows_le rows afterClose
      | true => exact Nat.le_refl _

theorem poised_closeGrouping (moved : Bool) {afterClose : Trivia} (formed : SlotFormed drawn afterClose)
    (fit : bounds.Passes fun depth => slotWithin framed (depth + 1) afterClose &&
      (bounds.stepping || !afterClose.any Token.isNewline)) :
    Brings (Poised (bounds.inside moved) rows) (closeGrouping moved afterClose)
      fun _ page => page.groupRequests.length ≤ bounds.requests - 1 ∧
        page.Poised bounds (slotRows true 0 afterClose) := by
  unfold closeGrouping
  refine poised_dropSpace.bind fun _ => ?_
  refine poised_closing (fun _ => poised_stepBack) (Nat.le_max_right 1 rows) ?_
  exact (poised_write rfl true).bind fun _ => poised_answer shown unframed formed fit

theorem within_grouping {afterOpen : Trivia} {inner : List Expr} {afterClose : Trivia}
    (openFormed : SlotFormed drawn afterOpen) (closeFormed : SlotFormed drawn afterClose)
    (fit : bounds.Passes fun depth => slotWithin framed (depth + 1) afterOpen &&
      Expr.listBalanced framed bounds.stepping (depthBehind afterOpen depth) inner &&
      slotWithin framed (depth + 1) afterClose && (bounds.stepping || !afterClose.any Token.isNewline))
    (laid : Brings (Poised (bounds.inside (afterOpen.any Token.isNewline)) 2) (Print.exprs inner)
      fun _ => Poised (bounds.inside (afterOpen.any Token.isNewline)) 2) :
    Brings (Within bounds rows) (Print.expr (.grouping afterOpen inner afterClose))
      fun _ page => page.groupRequests.length ≤ bounds.requests - 1 ∧
        page.Within bounds (slotRows true 0 afterClose) := by
  have closeFit : bounds.Passes fun depth => slotWithin framed (depth + 1) afterClose &&
      (bounds.stepping || !afterClose.any Token.isNewline) := by
    intro limit isLimit
    obtain ⟨depth, le, all⟩ := fit limit isLimit
    simp only [Bool.and_eq_true] at all ⊢
    exact ⟨depth, le, all.1.2, all.2⟩
  rw [Print.expr]
  refine (within_write rfl false).bind fun _ => ?_
  refine (poised_open shown unframed openFormed fit.left.left.left).bind fun moved => .assuming ?_
  rintro rfl
  refine (laid.before fun _ => Poised.forget).bind fun _ => ?_
  refine (poised_closeGrouping shown unframed _ closeFormed closeFit).bind fun _ => ?_
  intro page ends
  exact ⟨ends.1, within_closeExpression_nil page ends.2.2⟩

end

variable {drawn : Token → Prop}

section

variable (shown : ∀ token, drawn token → token.kind ≠ .newline → token.Shown)

include shown

theorem poised_plain {slot : Trivia} (formed : SlotFormed drawn slot) {how : Instruction}
    (stays : how.move ≠ .right) (own : how.respect = false) :
    Brings (Poised bounds rows) (Print.slot slot how) fun _ => Poised bounds (slotRows false rows slot) := by
  have laid := @poised_slot bounds rows _ shown true bounds.alwaysFramed _ formed how stays fun respect => by
    rw [own] at respect
    cases respect
  rwa [own] at laid

theorem poised_free {inner : Bounds} (unlimited : inner.limit = none) {slot : Trivia}
    (formed : SlotFormed drawn slot) (how : Instruction) :
    Brings (Poised inner rows) (trivia slot how) fun _ => Poised inner (slotRows how.respect rows slot) := by
  by_cases right : how.move = .right
  · refine (poised_trivia_right shown (Bounds.alwaysFramed _) formed right fun _ =>
      Bounds.passes_of_unlimited unlimited _).behind fun moved page poised => ?_
    rwa [Bounds.inside_of_unlimited unlimited] at poised
  · exact poised_trivia shown inner.alwaysFramed formed right fun _ => Bounds.passes_of_unlimited unlimited _

theorem poised_freeSlot {inner : Bounds} (unlimited : inner.limit = none) {slot : Trivia}
    (formed : SlotFormed drawn slot) (how : Instruction) :
    Brings (Poised inner rows) (Print.slot slot how) fun _ => Poised inner (slotRows how.respect rows slot) :=
  fun page poised => poised_free shown unlimited formed how page poised

theorem placing {expr : Expr} (formed : expr.Formed drawn) {count : Nat}
    (brings : Brings (Within bounds rows) (Print.expr expr) fun _ => Within bounds count) :
    Brings (Poised bounds rows) (Print.expr expr) fun _ => Poised bounds count :=
  brings.poised (steady_expr shown formed).inner

theorem framing {expr : Expr} (formed : expr.Formed drawn)
    (each : ∀ {inner : Bounds}, (true = false → inner.frames = []) →
      inner.Passes (fun depth => expr.balanced true inner.stepping depth) → ∀ rows,
      Brings (Within inner rows) (Print.expr expr) fun _ => Within inner (expr.rowsBehind rows)) :
    Brings (Framed bounds rows) (Print.expr expr) fun _ => Framed bounds (expr.rowsBehind rows) :=
  .framed fun inner unlimited => placing shown formed
    (each inner.alwaysFramed (Bounds.passes_of_unlimited unlimited _) rows)

theorem within_leaf {token : Token} {behind : Trivia} (formed : WordFormed drawn token)
    (behindFormed : SlotFormed drawn behind) :
    Brings (Within bounds rows) (do
        writeToken token true
        Print.slot behind { leading := .all }
        closeExpression [])
      fun _ => Within bounds (slotRows false 0 behind) := by
  refine (within_word shown formed true).bind fun _ => ?_
  refine (poised_plain shown behindFormed (by decide) rfl).bind fun _ => ?_
  exact within_closeExpression_nil.before fun _ => And.right

end

section

variable (drawn : Token → Prop)

/-- Where the depth that the expression is checked for is within the bounds, so is the expression. -/
def Contained (expr : Expr) : Prop :=
  expr.Formed drawn → ∀ {framed : Bool} {bounds : Bounds}, (framed = false → bounds.frames = []) →
    bounds.Passes (fun depth => expr.balanced framed bounds.stepping depth) → ∀ rows,
    Brings (Within bounds rows) (Print.expr expr) fun _ => Within bounds (expr.rowsBehind rows)

def ContainedAll (exprs : List Expr) : Prop :=
  Expr.ListFormed drawn exprs → ∀ {framed : Bool} {bounds : Bounds}, (framed = false → bounds.frames = []) →
    bounds.Passes (fun depth => Expr.listBalanced framed bounds.stepping depth exprs) →
    Brings (Poised bounds 2) (Print.exprs exprs) fun _ => Poised bounds 2

def ContainedIndices (indices : List (Trivia × Expr)) : Prop :=
  Expr.IndicesFormed drawn indices → ∀ {bounds : Bounds},
    Brings (Poised bounds 2) (indexList indices) fun _ => Poised bounds 2

def ContainedItems (items : List (Item Expr)) : Prop :=
  Expr.ItemsFormed drawn items → ∀ {framed : Bool} {bounds : Bounds}, (framed = false → bounds.frames = []) →
    bounds.Passes (fun depth => Expr.entriesBalanced framed bounds.stepping depth items) →
    ∀ endDelimited broken rows, Brings (Poised bounds rows) (entries endDelimited broken broken items)
      fun _ => Poised bounds (Expr.entriesRows endDelimited broken rows items)

end

attribute [simp] Print.expr Print.exprs entries indexList

attribute [simp] Expr.balanced Expr.listBalanced Expr.entriesBalanced Expr.rowsBehind Expr.entriesRows

namespace Contained

variable (shown : ∀ token, drawn token → token.kind ≠ .newline → token.Shown)

include shown

theorem call {callee : Expr} {arguments : List (Item Expr)} {afterOpen trailing : Trivia}
    {endDelimited : Bool} (calleeFits : Contained drawn callee)
    (argumentsFits : ContainedItems drawn arguments) :
    Contained drawn (.call callee afterOpen ⟨arguments, endDelimited⟩ trailing) := by
  intro formed framed bounds unframed fit rows
  obtain ⟨calleeFormed, openFormed, argumentsFormed, trailingFormed⟩ := formed
  simp only [Expr.balanced] at fit
  rw [Print.expr, Expr.rowsBehind]
  refine .optional (Within bounds rows) (fun _ => within_exempt) (fun _ _ => id) ?_
  refine (calleeFits calleeFormed unframed fit.left.left.left rows).bind fun _ => ?_
  refine within_dropSpace.bind fun _ => (within_write rfl false).bind fun _ => ?_
  refine (poised_open shown unframed openFormed fit.left.left.right).bind fun moved => .assuming ?_
  rintro rfl
  have inner : (bounds.inside (afterOpen.any Token.isNewline)).Passes fun depth =>
      Expr.entriesBalanced framed bounds.stepping depth arguments := fit.left.right.inside
  refine (argumentsFits argumentsFormed (Bounds.unframed_inside unframed _) inner endDelimited false
    _).bind fun _ => ?_
  refine (poised_closeCall _ arguments).bind fun _ => ?_
  exact (poised_closeExpression shown unframed trailingFormed fit.right).within

theorem function {signature : Expr} {afterKeyword afterSignature trailing : Trivia} {isConstructor : Bool}
    (signatureFits : Contained drawn signature) :
    Contained drawn (.function afterKeyword signature afterSignature isConstructor trailing) := by
  intro formed _ _ unframed fit rows
  obtain ⟨keywordFormed, signatureFormed, afterFormed, trailingFormed⟩ := formed
  simp only [Expr.balanced] at fit
  rw [Print.expr, Expr.rowsBehind]
  refine (within_write rfl true).bind fun _ => ?_
  refine (poised_plain shown keywordFormed (by decide) rfl).bind fun _ => ?_
  refine (placing shown signatureFormed (signatureFits signatureFormed unframed fit.left _)).bind fun _ => ?_
  cases isConstructor with
  | true =>
    refine (poised_plain shown afterFormed (by decide) rfl).bind fun _ => ?_
    refine (poised_write rfl true).bind fun _ => ?_
    refine (within_exempt.poised quiet_exempt.inner).bind fun _ => ?_
    exact (poised_closeExpression shown unframed trailingFormed fit.right).within
  | false =>
    refine poised_dropBlanks.bind fun _ => (poised_plain shown afterFormed (by decide) rfl).bind fun _ => ?_
    refine (within_exempt.poised quiet_exempt.inner).bind fun _ => ?_
    exact (poised_closeExpression shown unframed trailingFormed fit.right).within

theorem lifetime {operator : Token} {operand : Expr} {afterOperator trailing : Trivia}
    (operandFits : Contained drawn operand) :
    Contained drawn (.lifetime operator afterOperator operand trailing) := by
  intro formed _ _ unframed fit rows
  obtain ⟨operatorFormed, afterFormed, operandFormed, trailingFormed⟩ := formed
  simp only [Expr.balanced] at fit
  rw [Print.expr, Expr.rowsBehind]
  refine (within_word shown operatorFormed true).bind fun _ => ?_
  refine (poised_plain shown afterFormed (by decide) rfl).bind fun _ => ?_
  refine (placing shown operandFormed (operandFits operandFormed unframed fit.left _)).bind fun _ => ?_
  refine poised_dropBlanks.bind fun _ => ?_
  exact (poised_closeExpression shown unframed trailingFormed fit.right).within

theorem binary {operator : Token} {left right : Expr} {afterOperator : Trivia}
    (leftFits : Contained drawn left) (rightFits : Contained drawn right) :
    Contained drawn (.binary left operator afterOperator right) := by
  intro formed _ bounds unframed fit rows
  obtain ⟨leftFormed, shownLeft, operatorFormed, afterFormed, rightFormed⟩ := formed
  simp only [Expr.balanced] at fit
  rw [Print.expr, Expr.rowsBehind]
  have opensLeft : Brings (Within bounds rows) (Print.expr left)
      fun _ => Poised bounds (left.rowsBehind rows) :=
    fun page within => ⟨(steady_expr shown leftFormed page within.tidy trivial).2 shownLeft,
      leftFits leftFormed unframed fit rows page within⟩
  refine opensLeft.bind fun _ => poised_ensureSpace.bind fun _ => ?_
  refine (poised_word shown operatorFormed true).bind fun _ => poised_openFrame.bind fun _ => ?_
  refine (Brings.framed fun inner unlimited =>
    poised_freeSlot shown unlimited afterFormed (.respecting .stay .all)).bind fun _ => ?_
  refine (framing shown rightFormed (rightFits rightFormed)).bind fun _ => ?_
  exact poised_closeFrame.bind fun _ => within_closeExpression_nil.before fun _ => And.right

theorem grouping {inner : List Expr} {afterOpen afterClose : Trivia} (innerFits : ContainedAll drawn inner)
    : Contained drawn (.grouping afterOpen inner afterClose) := by
  intro formed framed bounds unframed fit rows
  obtain ⟨openFormed, innerFormed, closeFormed⟩ := formed
  simp only [Expr.balanced] at fit
  rw [Expr.rowsBehind]
  have innerFit : (bounds.inside (afterOpen.any Token.isNewline)).Passes fun depth =>
      Expr.listBalanced framed bounds.stepping depth inner := fit.left.left.right.inside
  have laid := innerFits innerFormed (Bounds.unframed_inside unframed _) innerFit
  exact (within_grouping shown unframed openFormed closeFormed fit laid).behind fun _ _ ends => ends.2

theorem array {elements : List (Item Expr)} {afterOpen : Trivia} {endDelimited : Bool}
    (elementsFits : ContainedItems drawn elements) :
    Contained drawn (.array afterOpen ⟨elements, endDelimited⟩) := by
  intro formed framed bounds unframed fit rows
  obtain ⟨openFormed, elementsFormed⟩ := formed
  simp only [Expr.balanced] at fit
  rw [Print.expr, Expr.rowsBehind]
  refine (within_write rfl false).bind fun _ => ?_
  refine (poised_open shown unframed openFormed fit.left.left).bind fun moved => .assuming ?_
  rintro rfl
  have inner : (bounds.inside (afterOpen.any Token.isNewline)).Passes fun depth =>
      Expr.entriesBalanced framed bounds.stepping depth elements := fit.left.right.inside
  refine (elementsFits elementsFormed (Bounds.unframed_inside unframed _) inner endDelimited false
    _).bind fun _ => ?_
  refine poised_closing (fun moved => poised_newline_left fun limit isLimit => ?_) (Nat.le_succ _) ?_
  · simpa [moved] using fit.right.fact isLimit
  · refine (poised_write rfl false).bind fun _ => ?_
    exact within_closeExpression_nil.before fun _ => And.right

theorem literal {token : Token} {after : Trivia} : Contained drawn (.literal token after) := by
  intro formed _ _ unframed fit rows
  rw [Print.expr, Expr.rowsBehind]
  exact within_leaf shown formed.1 formed.2

theorem identifier {token : Token} {after : Trivia} : Contained drawn (.identifier token after) := by
  intro formed _ _ unframed fit rows
  rw [Print.expr, Expr.rowsBehind]
  exact within_leaf shown formed.1 formed.2

theorem numberStartDot {token : Token} {after : Trivia} :
    Contained drawn (.numberStartDot token after) := by
  intro formed _ _ unframed fit rows
  rw [Print.expr, Expr.rowsBehind]
  refine (within_write rfl false).bind fun _ => ?_
  exact (within_leaf shown formed.1 formed.2).before fun _ => And.right

theorem numberEndDot {token : Token} {after : Trivia} : Contained drawn (.numberEndDot token after) := by
  intro formed _ _ unframed fit rows
  rw [Print.expr, Expr.rowsBehind]
  refine (within_word shown formed.1 false).bind fun _ => (poised_write rfl true).bind fun _ => ?_
  refine (poised_plain shown formed.2 (by decide) rfl).bind fun _ => ?_
  exact within_closeExpression_nil.before fun _ => And.right

theorem unary {operator : Token} {operand : Expr} {afterOperator : Trivia}
    (operandFits : Contained drawn operand) : Contained drawn (.unary operator afterOperator operand) := by
  intro formed _ _ unframed fit rows
  obtain ⟨operatorFormed, afterFormed, operandFormed⟩ := formed
  simp only [Expr.balanced] at fit
  rw [Print.expr, Expr.rowsBehind]
  refine (within_word shown operatorFormed _).bind fun _ => ?_
  refine (poised_plain shown afterFormed (by decide) rfl).bind fun _ => ?_
  refine (placing shown operandFormed (operandFits operandFormed unframed fit _)).bind fun _ => ?_
  exact within_closeExpression_nil.before fun _ => And.right

theorem step {operator : Token} {operand : Expr} {afterOperator : Trivia}
    (operandFits : Contained drawn operand) : Contained drawn (.step operand operator afterOperator) := by
  intro formed _ _ unframed fit rows
  obtain ⟨operandFormed, operatorFormed, afterFormed⟩ := formed
  simp only [Expr.balanced] at fit
  rw [Print.expr, Expr.rowsBehind]
  refine (operandFits operandFormed unframed fit rows).bind fun _ => within_dropSpace.bind fun _ => ?_
  exact within_leaf shown operatorFormed afterFormed

theorem assign {operator : Token} {target value : Expr} {afterOperator : Trivia}
    (targetFits : Contained drawn target) (valueFits : Contained drawn value) :
    Contained drawn (.assign target operator afterOperator value) := by
  intro formed _ _ unframed fit rows
  obtain ⟨targetFormed, operatorFormed, afterFormed, valueFormed⟩ := formed
  simp only [Expr.balanced] at fit
  rw [Print.expr, Expr.rowsBehind]
  refine (targetFits targetFormed unframed fit.left rows).bind fun _ => ?_
  refine (within_word shown operatorFormed true).bind fun _ => ?_
  refine (poised_plain shown afterFormed (by decide) rfl).bind fun _ => ?_
  refine (placing shown valueFormed (valueFits valueFormed unframed fit.right _)).bind fun _ => ?_
  exact within_closeExpression_nil.before fun _ => And.right

theorem dotted {owner member : Expr} {afterDot trailing : Trivia} (ownerFits : Contained drawn owner)
    (memberFits : Contained drawn member) : Contained drawn (.dotted owner afterDot member trailing) := by
  intro formed _ _ unframed fit rows
  obtain ⟨ownerFormed, dotFormed, memberFormed, trailingFormed⟩ := formed
  simp only [Expr.balanced] at fit
  rw [Print.expr, Expr.rowsBehind]
  refine (ownerFits ownerFormed unframed fit.left rows).bind fun _ => within_dropSpace.bind fun _ => ?_
  refine (within_write rfl false).bind fun _ => poised_openFrame.bind fun _ => ?_
  refine (Brings.framed fun inner _ => within_openChain.poised quiet_openChain.inner).bind fun outermost => ?_
  refine (Brings.framed fun inner unlimited => poised_freeSlot shown unlimited dotFormed
    (.respecting (if outermost then .right else .stay) .one)).bind fun _ => ?_
  refine (framing shown memberFormed (memberFits memberFormed)).bind fun _ => ?_
  refine poised_closeFrame.bind fun _ => ?_
  refine ((within_closeChain outermost).poised (quiet_closeChain outermost).inner).bind fun _ => ?_
  exact (poised_closeExpression shown unframed trailingFormed fit.right).within

theorem access {accessor : Token} {collection : Expr} {indices : List (Trivia × Expr)} {trailing : Trivia}
    (collectionFits : Contained drawn collection) (indicesFits : ContainedIndices drawn indices) : Contained
    drawn (.access collection accessor indices trailing) := by
  intro formed _ _ unframed fit rows
  obtain ⟨collectionFormed, accessorFormed, indicesFormed, trailingFormed⟩ := formed
  simp only [Expr.balanced] at fit
  rw [Print.expr, Expr.rowsBehind]
  refine (collectionFits collectionFormed unframed fit.left rows).bind fun _ => ?_
  refine within_dropSpace.bind fun _ => (within_word shown accessorFormed _).bind fun _ => ?_
  refine ((indicesFits indicesFormed).before fun _ => Poised.forget).bind fun _ => ?_
  refine poised_dropSpace.bind fun _ => (poised_write rfl true).bind fun _ => ?_
  exact (poised_closeExpression shown unframed trailingFormed fit.right).within

theorem ternary {condition whenTrue whenFalse : Expr} {afterHook afterColon : Trivia}
    (conditionFits : Contained drawn condition) (trueFits : Contained drawn whenTrue)
    (falseFits : Contained drawn whenFalse) :
    Contained drawn (.ternary condition afterHook whenTrue afterColon whenFalse) := by
  intro formed _ bounds unframed fit rows
  obtain ⟨conditionFormed, hookFormed, trueFormed, colonFormed, falseFormed⟩ := formed
  simp only [Expr.balanced] at fit
  rw [Print.expr, Expr.rowsBehind]
  refine (conditionFits conditionFormed unframed fit rows).bind fun _ => ?_
  refine (within_write rfl true).bind fun _ => poised_openFrame.bind fun _ => ?_
  refine (Brings.framed fun inner unlimited => poised_freeSlot shown unlimited hookFormed
    { move := .right, leading := .all }).bind fun _ => ?_
  refine (framing shown trueFormed (trueFits trueFormed)).bind fun _ => ?_
  refine (Brings.framed fun inner unlimited => poised_write rfl true).bind fun _ => ?_
  refine (Brings.framed fun inner unlimited => poised_free shown unlimited colonFormed
    { move := .right }).bind fun moved => ?_
  refine (framing shown falseFormed (falseFits falseFormed)).bind fun _ => ?_
  refine poised_closeFrame.bind fun _ => ?_
  refine .optional (Poised bounds _) (fun _ => poised_setIndentation_left) (fun _ _ => id) ?_
  exact within_closeExpression_nil.before fun _ => And.right

omit shown in
theorem newline : Contained drawn .newline := by
  intro _ _ bounds _ _ rows
  rw [Print.expr, Expr.rowsBehind]
  refine within_exempt.bind fun _ => .read fun page => ?_
  refine .optional (Within bounds (rows + 1)) (fun _ => within_newline_stay)
    (fun _ _ within => within.relax (Nat.le_succ rows)) within_closeExpression_nil

theorem lineComment {token : Token} : Contained drawn (.lineComment token) := by
  intro formed _ _ _ _ rows
  rw [Print.expr, Expr.rowsBehind]
  refine within_exempt.bind fun _ => (within_word shown formed false).bind fun _ => ?_
  exact within_closeExpression_nil.before fun _ => And.right

theorem blockComment {token : Token} : Contained drawn (.blockComment token) := by
  intro formed _ _ _ _ rows
  rw [Print.expr, Expr.rowsBehind]
  refine within_exempt.bind fun _ => (within_word shown formed false).bind fun _ => ?_
  exact within_closeExpression_nil.before fun _ => And.right

theorem unidentified {token : Token} {trailing : Trivia} :
    Contained drawn (.unidentified token trailing) := by
  intro formed _ bounds unframed fit rows
  rw [Print.expr, Expr.rowsBehind]
  refine (within_word shown formed.1 true).bind fun _ => ?_
  refine .optional (Poised bounds 0) (fun _ => within_exempt.poised quiet_exempt.inner) (fun _ _ => id) ?_
  exact (poised_closeExpression shown unframed formed.2 fit).within

omit shown in
theorem nil : ContainedAll drawn [] :=
  fun _ _ _ _ _ => .pure fun _ => id

theorem cons {first : Expr} {others : List Expr} (here : Contained drawn first)
    (later : ContainedAll drawn others) : ContainedAll drawn (first :: others) := by
  intro formed framed bounds unframed fit
  simp only [Expr.listBalanced] at fit
  rw [Print.exprs]
  have laid := (here formed.1 unframed fit.left 2).poised (steady_expr shown formed.1).inner
  exact (laid.behind fun _ _ => Poised.forget).bind fun _ => later formed.2 unframed fit.right

omit shown in
theorem indicesNil : ContainedIndices drawn [] :=
  fun _ _ => .pure fun _ => id

theorem indicesCons {before : Trivia} {index : Expr} {others : List (Trivia × Expr)}
    (here : Contained drawn index) (later : ContainedIndices drawn others) :
    ContainedIndices drawn ((before, index) :: others) := by
  intro formed bounds
  obtain ⟨beforeFormed, indexFormed, othersFormed⟩ := formed
  rw [indexList]
  refine poised_openFrame.bind fun _ => ?_
  refine (Brings.framed fun inner unlimited =>
    poised_freeSlot shown unlimited beforeFormed { leading := .all }).bind fun _ => ?_
  refine (framing shown indexFormed (here indexFormed)).bind fun _ => ?_
  refine poised_closeFrame.bind fun _ => poised_dropSpace.bind fun _ => ?_
  refine .optional (Poised bounds 2) (fun _ => ?_) (fun _ _ => Poised.forget) (later othersFormed)
  exact (poised_write rfl true).behind fun _ _ => Poised.forget

omit shown in
theorem itemsNil : ContainedItems drawn [] :=
  fun _ _ _ _ _ _ _ _ => .pure fun _ => id

theorem itemsCons {value : Expr} {trailing : Trivia} {others : List (Item Expr)} (here : Contained drawn value)
    (later : ContainedItems drawn others) : ContainedItems drawn (⟨value, trailing⟩ :: others) := by
  intro formed framed bounds unframed fit endDelimited broken rows
  obtain ⟨valueFormed, trailingFormed, othersFormed⟩ := formed
  simp only [Expr.entriesBalanced] at fit
  rw [entries, Expr.entriesRows]
  have laid := (here valueFormed unframed fit.left.left rows).poised (steady_expr shown valueFormed).inner
  refine laid.bind fun _ => ?_
  refine (poised_closeEntry shown unframed endDelimited broken others.isEmpty trailingFormed
    fit.left.right).bind fun _ => ?_
  exact later othersFormed unframed fit.right endDelimited broken _

end Contained

mutual

theorem contained (shown : ∀ token, drawn token → token.kind ≠ .newline → token.Shown) :
    (expr : Expr) → Contained drawn expr
  | .call callee _ ⟨arguments, _⟩ _ => .call shown (contained shown callee) (containedItems shown arguments)
  | .function _ signature _ _ _ => .function shown (contained shown signature)
  | .lifetime _ _ operand _ => .lifetime shown (contained shown operand)
  | .binary left _ _ right => .binary shown (contained shown left) (contained shown right)
  | .grouping _ inner _ => .grouping shown (containedAll shown inner)
  | .array _ ⟨elements, _⟩ => .array shown (containedItems shown elements)
  | .literal .. => .literal shown
  | .identifier .. => .identifier shown
  | .numberStartDot .. => .numberStartDot shown
  | .numberEndDot .. => .numberEndDot shown
  | .unary _ _ operand => .unary shown (contained shown operand)
  | .step operand _ _ => .step shown (contained shown operand)
  | .assign target _ _ value => .assign shown (contained shown target) (contained shown value)
  | .dotted owner _ member _ => .dotted shown (contained shown owner) (contained shown member)
  | .access collection _ indices _ =>
    .access shown (contained shown collection) (containedIndices shown indices)
  | .ternary condition _ whenTrue _ whenFalse =>
    .ternary shown (contained shown condition) (contained shown whenTrue) (contained shown whenFalse)
  | .newline => .newline
  | .lineComment _ => .lineComment shown
  | .blockComment _ => .blockComment shown
  | .unidentified .. => .unidentified shown

theorem containedAll (shown : ∀ token, drawn token → token.kind ≠ .newline → token.Shown) :
    (exprs : List Expr) → ContainedAll drawn exprs
  | [] => Contained.nil
  | first :: others => Contained.cons shown (contained shown first) (containedAll shown others)

theorem containedIndices (shown : ∀ token, drawn token → token.kind ≠ .newline → token.Shown) :
    (indices : List (Trivia × Expr)) → ContainedIndices drawn indices
  | [] => Contained.indicesNil
  | (_, index) :: others =>
    Contained.indicesCons shown (contained shown index) (containedIndices shown others)

theorem containedItems (shown : ∀ token, drawn token → token.kind ≠ .newline → token.Shown) :
    (items : List (Item Expr)) → ContainedItems drawn items
  | [] => Contained.itemsNil
  | ⟨value, _⟩ :: others => Contained.itemsCons shown (contained shown value) (containedItems shown others)

end

end Print

end GmlLayout
