import GmlLayout.Proofs.Layout.Intact
import GmlLayout.Proofs.Layout.Steady
import GmlLayout.Proofs.Tree.Balanced

/-!
How deep a layout may go. Every step to the right, and every indentation taken over from the author, stays
within bounds that are known from the tree; a step to the left is taken wherever no blank line is in the way.
So an upper bound for the indentation is carried through the layout, together with one for the line breaks at
the end of the page, which decides whether there is a blank line.
-/

namespace GmlLayout

structure Bounds where
  /-- The deepest indentation, where it matters. -/
  limit : Option Nat
  /-- Whether a grouping that answers a request may go one deeper than that. -/
  stepping : Bool
  /-- How many requests to groupings may be pending. -/
  requests : Nat
  /-- The frames that are open. -/
  frames : List Int

namespace Bounds

/-- How many steps groupings may have made, if this many requests are still pending. -/
def gained (bounds : Bounds) (pending : Nat) : Nat :=
  if bounds.stepping then bounds.requests - pending else 0

def Admits (bounds : Bounds) (indentation : Int) (pending : Nat) : Prop :=
  ∀ limit, bounds.limit = some limit → indentation ≤ limit + bounds.gained pending

def deeper (bounds : Bounds) : Bounds :=
  { bounds with limit := bounds.limit.map (· + 1) }

def inside (bounds : Bounds) (moved : Bool) : Bounds :=
  { bounds with limit := if moved then bounds.limit.map (· + 1) else bounds.limit }

def frame (bounds : Bounds) (indentation : Int) (pending : Nat) : Bounds :=
  ⟨none, bounds.stepping, pending, indentation :: bounds.frames⟩

def Passes (bounds : Bounds) (check : Nat → Bool) : Prop :=
  ∀ limit, bounds.limit = some limit → ∃ depth ≤ limit, check depth = true

variable {bounds : Bounds}

theorem gained_mono (bounds : Bounds) {fewer pending : Nat} (le : fewer ≤ pending) :
    bounds.gained pending ≤ bounds.gained fewer := by
  unfold gained
  split
  · omega
  · exact Nat.le_refl 0

theorem Admits.answered {indentation : Int} {pending fewer : Nat} (admits : bounds.Admits indentation pending)
    (le : fewer ≤ pending) : bounds.Admits indentation fewer := by
  intro limit isLimit
  have room := admits limit isLimit
  have more := bounds.gained_mono le
  omega

theorem Admits.less {indentation smaller : Int} {pending : Nat} (admits : bounds.Admits indentation pending)
    (le : smaller ≤ indentation) : bounds.Admits smaller pending :=
  fun limit isLimit => Int.le_trans le (admits limit isLimit)

theorem admits_deeper {indentation : Int} {pending : Nat} :
    bounds.deeper.Admits indentation pending ↔ bounds.Admits (indentation - 1) pending := by
  constructor
  · intro admits limit isLimit
    have room := admits (limit + 1) (by rw [deeper, isLimit]; rfl)
    have same : bounds.deeper.gained pending = bounds.gained pending := rfl
    omega
  · intro admits limit isLimit
    obtain ⟨shallower, isShallower, rfl⟩ := Option.map_eq_some_iff.mp isLimit
    have room := admits shallower isShallower
    have same : bounds.deeper.gained pending = bounds.gained pending := rfl
    omega

@[simp] theorem inside_true : bounds.inside true = bounds.deeper := rfl

theorem unframed_inside {framed : Bool} (unframed : framed = false → bounds.frames = []) (moved : Bool) :
    framed = false → (bounds.inside moved).frames = [] :=
  unframed

theorem inside_of_unlimited (unlimited : bounds.limit = none) (moved : Bool) : bounds.inside moved = bounds := by
  obtain ⟨limit, stepping, requests, frames⟩ := bounds
  cases unlimited
  cases moved <;> rfl

theorem passes_of_unlimited (unlimited : bounds.limit = none) (check : Nat → Bool) : bounds.Passes check := by
  intro limit isLimit
  rw [unlimited] at isLimit
  cases isLimit

theorem alwaysFramed (bounds : Bounds) : true = false → bounds.frames = [] :=
  fun unframed => absurd unframed (by decide)

namespace Passes

variable {check other : Nat → Bool}

theorem left (passes : bounds.Passes fun depth => check depth && other depth) : bounds.Passes check := by
  intro limit isLimit
  obtain ⟨depth, le, both⟩ := passes limit isLimit
  exact ⟨depth, le, (Bool.and_eq_true_iff.mp both).1⟩

theorem right (passes : bounds.Passes fun depth => check depth && other depth) : bounds.Passes other := by
  intro limit isLimit
  obtain ⟨depth, le, both⟩ := passes limit isLimit
  exact ⟨depth, le, (Bool.and_eq_true_iff.mp both).2⟩

theorem fact {holds : Bool} (passes : bounds.Passes fun _ => holds) {limit : Nat}
    (isLimit : bounds.limit = some limit) : holds = true := by
  obtain ⟨_, _, fact⟩ := passes limit isLimit
  exact fact

theorem deeper (passes : bounds.Passes fun depth => check (depth + 1)) : bounds.deeper.Passes check := by
  intro limit isLimit
  obtain ⟨shallower, isShallower, rfl⟩ := Option.map_eq_some_iff.mp isLimit
  obtain ⟨depth, le, holds⟩ := passes shallower isShallower
  exact ⟨depth + 1, Nat.succ_le_succ le, holds⟩

theorem inside {afterOpen : Trivia} (passes : bounds.Passes fun depth => check (depthBehind afterOpen depth)) :
    (bounds.inside (afterOpen.any Token.isNewline)).Passes check := by
  unfold depthBehind at passes
  cases moved : afterOpen.any Token.isNewline with
  | false =>
    rw [moved] at passes
    exact passes
  | true =>
    rw [moved] at passes
    exact Passes.deeper passes

end Passes

end Bounds

theorem slotRows_le (rows : Nat) (slot : Trivia) : slotRows false rows slot ≤ slotRows true rows slot := by
  have grows : ∀ slot : Trivia, slot.all Token.isNewline = true → ∀ rows,
      rows ≤ slot.foldl (fun rows token => if token.isNewline then rows + 1 else 0) rows := by
    intro slot
    induction slot with
    | nil => exact fun _ rows => Nat.le_refl rows
    | cons token rest ih =>
      intro breaks rows
      rw [List.all_cons, Bool.and_eq_true] at breaks
      rw [List.foldl_cons, if_pos breaks.1]
      exact Nat.le_trans (Nat.le_succ rows) (ih breaks.2 (rows + 1))
  unfold slotRows
  cases empty : slot.isEmpty with
  | true => simp
  | false =>
    by_cases breaks : slot.all Token.isNewline = true
    · simpa [breaks] using grows slot breaks rows
    · simp [breaks]

theorem slotRows_of_unbroken {rows : Nat} {slot : Trivia} (unbroken : slot.any Token.isNewline = false) :
    slotRows true rows slot ≤ rows := by
  have none : ∀ (slot : Trivia) (rows : Nat), slot.any Token.isNewline = false →
      slot.foldl (fun rows token => if token.isNewline then rows + 1 else 0) rows ≤ rows := by
    intro slot
    induction slot with
    | nil => exact fun rows _ => Nat.le_refl rows
    | cons token rest ih =>
      intro rows unbroken
      rw [List.any_cons, Bool.or_eq_false_iff] at unbroken
      rw [List.foldl_cons, unbroken.1]
      exact Nat.le_trans (ih 0 unbroken.2) (Nat.zero_le rows)
  unfold slotRows
  split
  · exact Nat.le_refl rows
  · exact none slot rows unbroken

theorem indentHint_le {depth : Nat} {slot : Trivia} {token : Token}
    (within : slotWithin true depth slot = true) (member : token ∈ slot) (breaks : token.isNewline = true) :
    token.indentHint ≤ depth := by
  have each : slot.all (fun token => !token.isNewline || token.indentHint ≤ depth) = true := within
  have here := List.all_eq_true.mp each token member
  rw [breaks] at here
  exact of_decide_eq_true here

namespace Page

structure SameLevel (page later : Page) : Prop where
  indentation : later.indentation = page.indentation
  requests : later.groupRequests = page.groupRequests
  frames : later.frames = page.frames

namespace SameLevel

variable {page later : Page}

theorem refl (page : Page) : SameLevel page page :=
  ⟨rfl, rfl, rfl⟩

theorem trans {last : Page} (first : SameLevel page later) (second : SameLevel later last) :
    SameLevel page last :=
  ⟨second.indentation.trans first.indentation, second.requests.trans first.requests,
    second.frames.trans first.frames⟩

end SameLevel

section

variable (page : Page)

theorem sameLevel_write (content : String) (spaceAfter : Bool) :
    SameLevel page (page.write content spaceAfter) := by
  cases spaceAfter <;> exact ⟨rfl, rfl, rfl⟩

theorem sameLevel_ensureSpace : SameLevel page page.ensureSpace := by
  unfold ensureSpace
  split <;> exact ⟨rfl, rfl, rfl⟩

theorem sameLevel_exemptIf (trailing : Bool) : SameLevel page (page.exemptIf trailing) := by
  cases trailing <;> exact ⟨rfl, rfl, rfl⟩

theorem sameLevel_writeRemark (how : Instruction) (token : Token) :
    SameLevel page (page.writeRemark how token) :=
  ((page.sameLevel_exemptIf _).trans (sameLevel_ensureSpace _)).trans (sameLevel_write _ _ _)

theorem sameLevel_writeSemicolon : SameLevel page page.writeSemicolon := by
  have dropped : SameLevel page page.dropSpace := ⟨rfl, rfl, rfl⟩
  exact dropped.trans (sameLevel_write _ _ _)

theorem sameLevel_placeSemicolon : SameLevel page page.placeSemicolon := by
  unfold placeSemicolon
  split
  · exact page.sameLevel_writeSemicolon
  · exact ⟨rfl, rfl, rfl⟩

theorem sameLevel_newline_stay : SameLevel page (page.newline .stay) := by
  unfold newline
  split <;> exact ⟨rfl, rfl, rfl⟩

theorem sameLevel_newlines (count : Nat) : SameLevel page (page.newlines count) := by
  induction count generalizing page with
  | zero => exact .refl page
  | succ count ih => exact page.sameLevel_newline_stay.trans (ih _)

theorem breaks_write {content : String} (shown : Fragment.ofText content = .text content)
    (spaceAfter : Bool) : (page.write content spaceAfter).buffer.breaks = 0 := by
  unfold write
  rw [shown]
  cases spaceAfter <;> rfl

theorem breaks_ensureSpace : page.ensureSpace.buffer.breaks = page.buffer.breaks := by
  unfold ensureSpace
  split <;> rfl

theorem breaks_writeMargin (tabs : page.settings.useSpaces = false) :
    page.writeMargin.buffer.breaks = page.buffer.breaks := by
  have unit : page.unit = [.tab] := by simp [Page.unit, tabs]
  have same : ∀ fragment ∈ page.margin, fragment = .tab := by
    rw [margin, unit, List.flatten_replicate_singleton]
    exact fun fragment member => List.eq_of_mem_replicate member
  exact Buffer.breaks_unit same (.inr rfl) page.buffer

end

section

variable {page : Page} (tidy : page.Tidy)

include tidy

theorem breaks_dropBlanks : page.dropBlanks.2.buffer.breaks = 0 := by
  show (Buffer.dropBlanks page.buffer).2.breaks = 0
  rw [tidy.neat.dropBlanks_eq]
  exact Buffer.breaks_dropWhile _

theorem breaks_startLine : (page.dropSpace.push .newline).buffer.breaks = page.buffer.breaks + 1 :=
  congrArg (· + 1) tidy.neat.breaks_dropSpace

theorem breaks_newline (move : Move) : (page.newline move).buffer.breaks ≤ page.buffer.breaks + 1 := by
  unfold newline
  split
  · exact Nat.le_succ _
  · have level := breaks_writeMargin ((page.dropSpace.push .newline).setIndentation move) tidy.tabs
    exact Nat.le_of_eq (level.trans (breaks_startLine tidy))

theorem breaks_newlines (count : Nat) :
    (page.newlines count).buffer.breaks ≤ page.buffer.breaks + count := by
  induction count generalizing page with
  | zero => exact Nat.le_refl _
  | succ count ih =>
    have first := breaks_newline tidy .stay
    have others := ih (moves_newline tidy .stay).kept.tidy
    show ((page.newline .stay).newlines count).buffer.breaks ≤ _
    omega

theorem breaks_firstBreak (how : Instruction) (hint : Int) :
    (page.firstBreak how hint).buffer.breaks ≤ page.buffer.breaks + 1 := by
  unfold firstBreak
  split
  · refine Nat.le_trans (Nat.le_of_eq (breaks_writeMargin _ ?_)) ?_
    · split <;> exact tidy.tabs
    · split
      · rename_i above
        have two := (blankLineAbove_iff tidy).mp above
        show page.buffer.dropLine.breaks ≤ _
        rw [Buffer.breaks_dropLine_of_breaks (by omega)]
        exact Nat.le_succ _
      · exact Nat.le_of_eq (breaks_startLine tidy)
  · exact breaks_newline tidy how.move

/-- A step to a new line is taken where something has been written and no blank line is in the way. -/
theorem indentation_newline (move : Move) :
    (2 ≤ page.buffer.breaks ∨ ¬page.Begun) ∧ (page.newline move).indentation = page.indentation ∨
      (page.newline move).indentation = page.indentationAfter move := by
  unfold newline
  split
  · rename_i stays
    left
    rw [Bool.or_eq_true, List.isEmpty_iff, blankLineAbove_iff tidy] at stays
    exact ⟨stays.symm.imp_right fun none begun => begun none, rfl⟩
  · exact .inr rfl

theorem indentation_firstBreak (begun : page.Begun) (how : Instruction) (hint : Int) :
    2 ≤ page.buffer.breaks ∧ (page.firstBreak how hint).indentation = page.indentation ∨
      (page.firstBreak how hint).indentation = page.indentationAfter how.move ∨
      page.frames ≠ [] ∧ how.respect = true ∧ page.indentationAfter how.move ≤ hint ∧
        (page.firstBreak how hint).indentation = hint := by
  unfold firstBreak
  split
  · rename_i takes
    simp only [Bool.and_eq_true, Bool.not_eq_true', List.isEmpty_eq_false_iff, decide_eq_true_eq] at takes
    exact .inr (.inr ⟨takes.1.1, takes.1.2, takes.2, rfl⟩)
  · obtain ⟨refused, same⟩ | taken := indentation_newline tidy how.move
    · exact .inl ⟨refused.resolve_right (not_not_intro begun), same⟩
    · exact .inr (.inl taken)

end

section

variable (page : Page)

theorem newline_requests (move : Move) : (page.newline move).groupRequests = page.groupRequests ∧
    (page.newline move).frames = page.frames := by
  unfold newline
  split <;> exact ⟨rfl, rfl⟩

theorem firstBreak_requests (how : Instruction) (hint : Int) :
    (page.firstBreak how hint).groupRequests = page.groupRequests ∧
      (page.firstBreak how hint).frames = page.frames := by
  unfold firstBreak
  split
  · split <;> exact ⟨rfl, rfl⟩
  · exact page.newline_requests how.move

end

/-- What one token of a slot does before the rest of it: a line break is passed over, starts a new line, or
starts the first one; anything else is written. -/
theorem triviaFrom_cons (how : Instruction) (opening : Opening) (moved : Bool) {token : Token}
    (trivia : token.kind.isTrivia = true) (rest : Trivia) (page : Page) : ∃ later : Opening,
    token.isNewline = true ∧
      (triviaFrom how opening moved (token :: rest) page = triviaFrom how later moved rest page ∨
        moved = true ∧ triviaFrom how opening moved (token :: rest) page =
          triviaFrom how later true rest (page.newline .stay) ∨
        moved = false ∧ triviaFrom how opening moved (token :: rest) page =
          triviaFrom how later true rest (page.firstBreak how token.indentHint)) ∨
    token.isNewline = false ∧ triviaFrom how opening moved (token :: rest) page =
      triviaFrom how later moved rest (page.writeRemark how token) := by
  by_cases newline : token.isNewline = true
  · cases opening with
    | collapsing => exact ⟨.collapsing, .inl ⟨newline, .inl (by rw [triviaFrom, if_pos newline])⟩⟩
    | pending =>
      by_cases drops : how.leading = .none
      · exact ⟨.collapsing, .inl ⟨newline, .inl (by rw [triviaFrom, if_pos newline]; exact if_pos drops)⟩⟩
      · cases moved with
        | true =>
          refine ⟨.collapsing, .inl ⟨newline, .inr (.inl ⟨rfl, ?_⟩)⟩⟩
          rw [triviaFrom, if_pos newline]
          exact if_neg drops
        | false =>
          refine ⟨.collapsing, .inl ⟨newline, .inr (.inr ⟨rfl, ?_⟩)⟩⟩
          rw [triviaFrom, if_pos newline]
          exact if_neg drops
    | _ =>
      cases moved with
      | true => exact ⟨.over, .inl ⟨newline, .inr (.inl ⟨rfl, by rw [triviaFrom, if_pos newline]; rfl⟩)⟩⟩
      | false => exact ⟨.over, .inl ⟨newline, .inr (.inr ⟨rfl, by rw [triviaFrom, if_pos newline]; rfl⟩)⟩⟩
  · refine ⟨.over, .inr ⟨by simpa using newline, ?_⟩⟩
    cases opening <;> rw [triviaFrom, if_neg newline, if_pos trivia]

/-- Where a slot may leave the indentation: where it was if no line break was written, and else where the
first one left it. -/
structure Reaches (how : Instruction) (slot : Trivia) (page : Page) (moved : Bool) (later : Page) : Prop where
  requests : later.groupRequests = page.groupRequests
  frames : later.frames = page.frames
  stays : moved = false → later.indentation = page.indentation
  broken : moved = true → slot.any Token.isNewline = true
  goes : moved = true →
    2 ≤ page.buffer.breaks ∧ later.indentation = page.indentation ∨
    later.indentation = page.indentationAfter how.move ∨
    page.frames ≠ [] ∧ how.respect = true ∧ page.indentationAfter how.move ≤ later.indentation ∧
      ∃ token ∈ slot, token.isNewline = true ∧ later.indentation = token.indentHint

section

variable {drawn : Token → Prop} (shown : ∀ token, drawn token → token.kind ≠ .newline → token.Shown)
  {page : Page}

include shown

theorem breaks_writeRemark (page : Page) {slot : Trivia} (formed : SlotFormed drawn slot) {token : Token}
    (member : token ∈ slot) (visible : token.isNewline = false) (how : Instruction) :
    (page.writeRemark how token).buffer.breaks = 0 := by
  have noBreak : token.kind ≠ .newline := by simpa [Token.isNewline] using visible
  exact breaks_write _ (shown token (formed token member).1 noBreak) _

theorem triviaFrom_moved (how : Instruction) (opening : Opening) {slot : Trivia}
    (formed : SlotFormed drawn slot) (tidy : page.Tidy) (begun : page.Begun) {rows : Nat}
    (few : page.buffer.breaks ≤ rows) :
    (triviaFrom how opening true slot page).1 = true ∧
      SameLevel page (triviaFrom how opening true slot page).2 ∧
      (triviaFrom how opening true slot page).2.buffer.breaks ≤
        slot.foldl (fun rows token => if token.isNewline then rows + 1 else 0) rows := by
  induction slot generalizing opening page rows with
  | nil => exact ⟨rfl, .refl page, few⟩
  | cons token rest ih =>
    obtain ⟨later, ⟨newline, passed | ⟨_, starts⟩ | ⟨other, _⟩⟩ | ⟨visible, writes⟩⟩ :=
      triviaFrom_cons how opening true (formed token List.mem_cons_self).2 rest page
    · rw [passed, List.foldl_cons, if_pos newline]
      exact ih later formed.tail tidy begun (Nat.le_succ_of_le few)
    · have moves := moves_newline tidy .stay
      have counted := breaks_newline tidy .stay
      rw [starts, List.foldl_cons, if_pos newline]
      obtain ⟨given, level, ends⟩ := ih later formed.tail moves.kept.tidy (moves.kept.begun begun)
        (Nat.le_trans counted (Nat.succ_le_succ few))
      exact ⟨given, page.sameLevel_newline_stay.trans level, ends⟩
    · cases other
    · have noBreak : token.kind ≠ .newline := by simpa [Token.isNewline] using visible
      have moves := moves_writeRemark tidy begun how (shown token (formed token List.mem_cons_self).1 noBreak)
      have counted := breaks_writeRemark shown page formed List.mem_cons_self visible how
      rw [writes, List.foldl_cons, if_neg (by rw [visible]; exact Bool.false_ne_true)]
      obtain ⟨given, level, ends⟩ := ih later formed.tail moves.kept.tidy (moves.kept.begun begun)
        (Nat.le_of_eq counted)
      exact ⟨given, (page.sameLevel_writeRemark how token).trans level, ends⟩

theorem triviaFrom_reaches (how : Instruction) (opening : Opening) {slot : Trivia}
    (formed : SlotFormed drawn slot) (tidy : page.Tidy) (begun : page.Begun) {rows : Nat}
    (few : page.buffer.breaks ≤ rows) :
    Reaches how slot page (triviaFrom how opening false slot page).1
        (triviaFrom how opening false slot page).2 ∧
      (triviaFrom how opening false slot page).2.buffer.breaks ≤
        slot.foldl (fun rows token => if token.isNewline then rows + 1 else 0) rows := by
  induction slot generalizing opening page rows with
  | nil => exact ⟨⟨rfl, rfl, fun _ => rfl, nofun, nofun⟩, few⟩
  | cons token rest ih =>
    obtain ⟨later, ⟨newline, passed | ⟨other, _⟩ | ⟨_, starts⟩⟩ | ⟨visible, writes⟩⟩ :=
      triviaFrom_cons how opening false (formed token List.mem_cons_self).2 rest page
    · rw [passed, List.foldl_cons, if_pos newline]
      obtain ⟨reached, ends⟩ := ih later formed.tail tidy begun (Nat.le_succ_of_le few)
      refine ⟨⟨reached.requests, reached.frames, reached.stays, fun _ => ?_, fun moved => ?_⟩, ends⟩
      · rw [List.any_cons, newline, Bool.true_or]
      · refine (reached.goes moved).imp_right (Or.imp_right ?_)
        rintro ⟨framed, respect, deep, hint, member, isBreak, same⟩
        exact ⟨framed, respect, deep, hint, List.mem_cons_of_mem _ member, isBreak, same⟩
    · cases other
    · have moves := moves_firstBreak tidy begun how token.indentHint
      have counted := breaks_firstBreak tidy how token.indentHint
      rw [starts, List.foldl_cons, if_pos newline]
      obtain ⟨given, level, ends⟩ := triviaFrom_moved shown how later formed.tail moves.kept.tidy
        (moves.kept.begun begun) (Nat.le_trans counted (Nat.succ_le_succ few))
      obtain ⟨requests, frames⟩ := page.firstBreak_requests how token.indentHint
      refine ⟨⟨level.requests.trans requests, level.frames.trans frames, fun stays => ?_, fun _ => ?_,
        fun _ => ?_⟩, ends⟩
      · rw [given] at stays
        cases stays
      · rw [List.any_cons, newline, Bool.true_or]
      · rw [level.indentation]
        refine (indentation_firstBreak tidy begun how token.indentHint).imp_right (Or.imp_right ?_)
        rintro ⟨framed, respect, deep, same⟩
        exact ⟨framed, respect, by rw [same]; exact deep, token, List.mem_cons_self, newline, same⟩
    · have noBreak : token.kind ≠ .newline := by simpa [Token.isNewline] using visible
      have moves := moves_writeRemark tidy begun how (shown token (formed token List.mem_cons_self).1 noBreak)
      have counted := breaks_writeRemark shown page formed List.mem_cons_self visible how
      have level := page.sameLevel_writeRemark how token
      rw [writes, List.foldl_cons, if_neg (by rw [visible]; exact Bool.false_ne_true)]
      obtain ⟨reached, ends⟩ := ih later formed.tail moves.kept.tidy (moves.kept.begun begun)
        (Nat.le_of_eq counted)
      refine ⟨⟨reached.requests.trans level.requests, reached.frames.trans level.frames,
        fun stays => (reached.stays stays).trans level.indentation, fun moved => ?_, fun moved => ?_⟩, ends⟩
      · rw [List.any_cons, reached.broken moved, Bool.or_true]
      · have after : (page.writeRemark how token).indentationAfter how.move =
            page.indentationAfter how.move := by
          cases how.move <;> simp [indentationAfter, level.indentation]
        obtain ⟨two, _⟩ | goes | ⟨framed, respect, deep, hint, member, isBreak, same⟩ := reached.goes moved
        · rw [counted] at two
          exact absurd two (by decide)
        · exact .inr (.inl (goes.trans after))
        · refine .inr (.inr ⟨by rw [← level.frames]; exact framed, respect, by rw [← after]; exact deep, hint,
            List.mem_cons_of_mem _ member, isBreak, same⟩)

/-- A slot leaves the indentation within reach, and few line breaks at the end of the page. -/
theorem trivia_reaches (how : Instruction) {slot : Trivia} (formed : SlotFormed drawn slot)
    (tidy : page.Tidy) (begun : page.Begun) {rows : Nat} (few : page.buffer.breaks ≤ rows) :
    Reaches how slot page (page.trivia slot how).1 (page.trivia slot how).2 ∧
      (page.trivia slot how).2.buffer.breaks ≤ slotRows how.respect rows slot := by
  unfold trivia slotRows
  split
  · exact ⟨⟨rfl, rfl, fun _ => rfl, nofun, nofun⟩, few⟩
  · exact triviaFrom_reaches shown how _ formed tidy begun few

end

end Page

end GmlLayout
