import GmlLayout.Proofs.Layout.LevelExpressions
import GmlLayout.Proofs.Layout.SteadyStatements

/-!
Statements keep to the bounds. A block, a `switch` and the header of a `for` undo the step they make; so does
an `if` whose branch has been indented, unless the step back comes below a blank line. Only a declaration
that goes on to a new line leaves a frame open.
-/

namespace GmlLayout

def Bounds.plain (limit : Nat) (frames : List Int) : Bounds :=
  ⟨some limit, true, 0, frames⟩

namespace Bounds

variable {limit : Nat} {frames : List Int}

theorem passes_of_le {stepping : Bool} {requests : Nat} {check : Nat → Bool} {depth : Nat} (le : depth ≤ limit)
    (holds : check depth = true) : (⟨some limit, stepping, requests, frames⟩ : Bounds).Passes check := by
  intro other isLimit
  cases isLimit
  exact ⟨depth, le, holds⟩

theorem passes_plain {check : Nat → Bool} {depth : Nat} (le : depth ≤ limit) (holds : check depth = true) :
    (plain limit frames).Passes check :=
  passes_of_le le holds

theorem admits_calm {stepping : Bool} {indentation : Int} {pending : Nat} :
    (⟨some limit, stepping, 0, frames⟩ : Bounds).Admits indentation pending ↔ indentation ≤ limit := by
  have none : (⟨some limit, stepping, 0, frames⟩ : Bounds).gained pending = 0 := by
    cases stepping with
    | false => rfl
    | true => exact Nat.zero_sub pending
  refine ⟨fun admits => ?_, fun le other isLimit => ?_⟩
  · simpa [none] using admits limit rfl
  · cases isLimit
    simpa [none] using le

theorem inside_plain (moved : Bool) :
    (plain limit frames).inside moved = plain (limit + moved.toNat) frames := by
  cases moved <;> rfl

theorem admits_inside {moved : Bool} {indentation : Int} {pending : Nat} :
    ((plain limit frames).inside moved).Admits indentation pending ↔
      indentation ≤ limit + (if moved then 1 else 0) := by
  rw [inside_plain]
  refine admits_calm.trans ?_
  cases moved <;> simp

end Bounds

namespace Page

variable {limit : Nat} {rows : Nat} {page : Page}

theorem Within.indentation_le {frames : List Int} (within : page.Within (.plain limit frames) rows) :
    page.indentation ≤ limit :=
  Bounds.admits_calm.mp within.admitted

theorem Within.calm {stepping : Bool} {frames : List Int} :
    page.Within ⟨some limit, stepping, 0, frames⟩ rows ↔ page.Within (.plain limit frames) rows := by
  have levels : ∀ pending, (⟨some limit, stepping, 0, frames⟩ : Bounds).Admits page.indentation pending ↔
      (Bounds.plain limit frames).Admits page.indentation pending :=
    fun _ => Bounds.admits_calm.trans Bounds.admits_calm.symm
  exact ⟨fun within => ⟨within.tidy, within.nonneg, (levels _).mp within.admitted, within.requests,
      within.frames, within.rows⟩,
    fun within => ⟨within.tidy, within.nonneg, (levels _).mpr within.admitted, within.requests,
      within.frames, within.rows⟩⟩

theorem Poised.indented {stepping : Bool} {frames : List Int}
    (poised : page.Poised ((Bounds.plain limit frames).inside stepping) rows) {before : Int}
    (level : before ≤ limit) :
    page.Poised ((Bounds.plain limit frames).inside (stepping && page.indentation != before)) rows := by
  by_cases same : page.indentation = before
  · refine ⟨poised.1, poised.2.tidy, poised.2.nonneg, ?_, poised.2.requests, poised.2.frames, poised.2.rows⟩
    rw [same, Bounds.admits_inside]
    simpa using level
  · have changed : (page.indentation != before) = true := by simpa using same
    rw [changed, Bool.and_true]
    exact poised

end Page

namespace Print

open Page

variable {α : Type} {bounds : Bounds} {rows : Nat}

theorem within_writeSemicolon : Brings (Within bounds rows) (modify writeSemicolon) fun _ => Poised bounds 0 :=
  fun page within => within_write rfl true page.dropSpace (within_dropSpace page within)

theorem within_semicolonIf (written : Bool) :
    Brings (Within bounds rows) (semicolonIf written) fun _ => Within bounds (if written then 0 else rows) := by
  cases written with
  | true => exact within_writeSemicolon.within
  | false => exact .pure fun _ => id

theorem poised_semicolonIf (written : Bool) :
    Brings (Poised bounds rows) (semicolonIf written) fun _ => Poised bounds (if written then 0 else rows) :=
  (within_semicolonIf written).poised (quiet_semicolonIf written).inner

theorem poised_closingSemicolon (written : Bool) :
    Brings (Poised bounds 0) (semicolonIf written) fun _ => Poised bounds 0 := by
  have laid := @poised_semicolonIf bounds 0 written
  rwa [ite_self] at laid

theorem poised_semicolonAndNewline (written : Bool) :
    Brings (Poised bounds rows) (semicolonAndNewline written .stay) fun _ => Poised bounds 1 := by
  unfold semicolonAndNewline
  refine (within_writeSemicolon.before fun _ => And.right).bind fun _ => .ite (fun _ => ?_) fun _ => ?_
  · exact .pure fun page poised => poised.relax (Nat.le_succ 0)
  · exact poised_newline_stay.bind fun _ => .pure fun _ => id

theorem poised_setLineEnded (ended : Bool) :
    Brings (Poised bounds rows) (setLineEnded ended) fun _ => Poised bounds rows := by
  intro page poised
  obtain ⟨moves, begun⟩ := inner_setLineEnded ended page poised.2.tidy poised.1
  exact ⟨begun, poised.2.stay moves.kept.tidy ⟨rfl, rfl, rfl⟩ poised.2.rows⟩

theorem within_takeExemption : Brings (Within bounds rows) takeExemption fun _ => Within bounds rows :=
  fun page within =>
    within.stay (quiet_takeExemption page within.tidy trivial).1.kept.tidy ⟨rfl, rfl, rfl⟩ within.rows

theorem within_newlines (count : Nat) :
    Brings (Within bounds 0) (modify fun page => page.newlines count) fun _ => Within bounds count := by
  intro page within
  refine within.stay (moves_newlines within.tidy count).kept.tidy (page.sameLevel_newlines count) ?_
  exact Nat.le_trans (breaks_newlines within.tidy count) (by have := within.rows; omega)

theorem within_placeSemicolon :
    Brings (Within bounds rows) (modify placeSemicolon) fun _ => Within bounds rows := by
  intro page within
  refine within.stay (moves_placeSemicolon within.tidy).kept.tidy page.sameLevel_placeSemicolon ?_
  show page.placeSemicolon.buffer.breaks ≤ rows
  unfold placeSemicolon
  split
  · exact Nat.zero_le rows
  · show Buffer.breaks (page.buffer.afterCode ++ .text ";" :: page.buffer.code) ≤ rows
    rw [Buffer.breaks_insert (code_cases _), Buffer.afterCode_append_code]
    exact within.rows

theorem within_terminate (closed : Bool) :
    Brings (Within bounds rows) (terminate closed)
      fun _ => Within bounds (if closed then rows else max 1 rows) := by
  have dropped : Brings (Within bounds rows) (modifyGet Page.dropBlanks)
      fun breaks page => breaks ≤ rows ∧ page.Within bounds 0 := by
    intro page within
    refine ⟨?_, within.stay (moves_dropBlanks within.tidy).kept.tidy ⟨rfl, rfl, rfl⟩
      (Nat.le_of_eq (breaks_dropBlanks within.tidy))⟩
    show (Buffer.dropBlanks page.buffer).1 ≤ rows
    rw [within.tidy.neat.dropBlanks_eq]
    exact within.rows
  unfold terminate
  refine within_takeExemption.bind fun exempt => .ite (fun isOpen => ?_) fun _ => ?_
  · have opened : closed = false := by
      rw [Bool.and_eq_true, Bool.not_eq_true'] at isOpen
      exact isOpen.1
    rw [opened]
    refine dropped.bind fun breaks => .assuming fun few => .read fun page => .ite (fun _ => ?_) fun _ => ?_
    · have most : max breaks 1 ≤ max 1 rows := by omega
      split
      · exact (within_newlines _).behind fun _ _ within => within.relax most
      · exact (within_newlines _).behind fun _ _ within => within.relax (Nat.le_trans few (Nat.le_max_right 1 rows))
      · exact fun here within =>
          (within_newlines _ _ (within_placeSemicolon here within)).relax most
    · exact .pure fun page within => within.relax (Nat.zero_le _)
  · refine .pure fun page within => within.relax ?_
    split
    · exact Nat.le_refl rows
    · exact Nat.le_max_right 1 rows

section

variable {drawn : Token → Prop} (shown : ∀ token, drawn token → token.kind ≠ .newline → token.Shown)

include shown

/-- Without `respect`, a slot that makes a step to the right with its first line break. -/
theorem poised_indenting {slot : Trivia} (formed : SlotFormed drawn slot) :
    Brings (Poised bounds rows) (trivia slot { move := .right }) fun moved => Poised (bounds.inside moved) 2 :=
  (poised_trivia_right shown bounds.alwaysFramed formed rfl fun respect => absurd respect (by decide)).behind
    fun _ _ => Poised.forget

/-- Behind a slot that makes a step to the right, or behind a line that does, everything is one deeper. -/
theorem poised_indented {slot : Trivia} (formed : SlotFormed drawn slot) {rest : Print α}
    {post : α → Page → Prop} (further : Brings (Poised bounds.deeper 2) rest post) :
    Brings (Poised bounds rows) (do
      let moved ← trivia slot { move := .right }
      if !moved then
        newline .right
      rest) post := by
  refine (poised_indenting shown formed).bind fun moved => ?_
  cases moved with
  | true => exact further
  | false => exact (poised_newline_right.behind fun _ _ => Poised.forget).bind fun _ => further

theorem poised_repeatedKeyword {declared : Variable} (formed : declared.Formed drawn) (indented : Bool) :
    Brings (Poised (bounds.inside indented) rows) (repeatedKeyword declared indented)
      fun indented => Poised (bounds.inside indented) 2 := by
  obtain ⟨target, keyword, afterKeyword⟩ := declared
  unfold repeatedKeyword
  cases keyword with
  | none => exact .pure fun _ => Poised.forget
  | some keyword =>
    refine (poised_word shown formed.2.1 true).bind fun _ => ?_
    cases indented with
    | true =>
      refine (poised_trivia shown (Bounds.alwaysFramed _) formed.2.2 (by decide)
        fun respect => absurd respect (by decide)).bind fun moved => ?_
      exact .pure fun _ => Poised.forget
    | false => exact (poised_indenting shown formed.2.2).bind fun moved => .pure fun _ => id

theorem poised_variableTrivia {trailing : Trivia} (formed : SlotFormed drawn trailing) {limit depth : Nat}
    (le : depth ≤ limit) (fit : slotWithin true (depth + 1) trailing = true) {frames : List Int}
    (indented : Bool) :
    Brings (Poised ((Bounds.plain limit frames).inside indented) rows) (variableTrivia trailing indented)
      fun indented page => ∃ later, (trailing.any Token.isNewline = false → later = frames) ∧
        page.Poised ((Bounds.plain limit later).inside indented) (slotRows true rows trailing) := by
  unfold variableTrivia
  refine .ite (fun empty => .pure fun page poised => ?_) fun _ => ?_
  · rw [List.isEmpty_iff.mp empty]
    exact ⟨frames, fun _ => rfl, poised⟩
  have opened : Brings (Poised ((Bounds.plain limit frames).inside indented) rows) (modify openFrame)
      fun _ page => page.Poised ((Bounds.plain limit (page.indentation :: frames)).inside indented) rows := by
    intro page poised
    exact ⟨poised.1, (quiet_openFrame page poised.2.tidy trivial).1.kept.tidy, poised.2.nonneg,
      poised.2.admitted, poised.2.requests, congrArg (page.indentation :: ·) poised.2.frames, poised.2.rows⟩
  have laid : Brings
      (fun page => page.Poised ((Bounds.plain limit (page.indentation :: frames)).inside indented) rows)
      (trivia trailing (.respecting (if indented then .stay else .right) .all))
      fun moved page => (moved = true → trailing.any Token.isNewline = true ∧
          ∃ later, page.Poised ((Bounds.plain limit later).inside true) (slotRows true rows trailing)) ∧
        (moved = false → page.Poised ((Bounds.plain limit (page.indentation :: frames)).inside indented)
          (slotRows true rows trailing)) := by
    intro page poised
    obtain ⟨moves, _⟩ := movesTo_trivia shown formed
      (.respecting (if indented then .stay else .right) .all) poised.2.tidy poised.1
    obtain ⟨reaches, ends⟩ := trivia_reaches shown (.respecting (if indented then .stay else .right) .all) formed
      poised.2.tidy poised.1 poised.2.rows
    refine ⟨fun moved => ⟨reaches.broken moved, page.indentation :: frames, moves.kept.begun poised.1,
      poised.2.reached reaches moves.kept.tidy ends rfl rfl ?_⟩, fun stays => ⟨moves.kept.begun poised.1,
      poised.2.reached reaches moves.kept.tidy ends rfl ?_ ?_⟩⟩
    · have level := Bounds.admits_inside.mp poised.2.admitted
      rw [Bounds.admits_inside]
      obtain ⟨_, same⟩ | same | ⟨_, _, _, token, member, isBreak, same⟩ := reaches.goes moved
      · rw [same]
        cases indented <;> simp at level ⊢ <;> omega
      · rw [same]
        cases indented <;> simp [Instruction.respecting, indentationAfter] at level ⊢ <;> omega
      · have shallow := indentHint_le fit member isBreak
        rw [same]
        simp
        omega
    · exact congrArg (· :: frames) (reaches.stays stays)
    · rw [reaches.stays stays]
      exact poised.2.admitted
  have closed : ∀ count, Brings
      (fun page => page.Poised ((Bounds.plain limit (page.indentation :: frames)).inside indented) count)
      (modify closeFrame) fun _ => Poised ((Bounds.plain limit frames).inside indented) count := by
    intro count page poised
    have tidy : page.closeFrame.Tidy := (quiet_closeFrame page poised.2.tidy trivial).1.kept.tidy
    have framed : page.frames = page.indentation :: frames := poised.2.frames
    have same : page.closeFrame = { page with frames := frames } := by
      unfold closeFrame
      rw [framed]
    show page.closeFrame.Poised _ count
    rw [same] at tidy ⊢
    exact ⟨poised.1, tidy, poised.2.nonneg, poised.2.admitted, poised.2.requests, rfl, poised.2.rows⟩
  refine opened.bind fun _ => laid.bind fun moved => ?_
  cases moved with
  | true =>
    refine .pure fun page ends => ?_
    obtain ⟨broken, later, poised⟩ := ends.1 rfl
    refine ⟨later, fun none => ?_, poised⟩
    rw [broken] at none
    cases none
  | false =>
    refine ((closed _).before fun page ends => ends.2 rfl).bind fun _ => ?_
    exact .pure fun page poised => ⟨frames, fun _ => rfl, poised⟩

theorem poised_variableList (endDelimited : Bool) {items : List (Item Variable)}
    (formed : Variable.ItemsFormed drawn items) {limit depth : Nat} (le : depth ≤ limit)
    (fit : ∀ item ∈ items, slotWithin true (depth + 1) item.trailing = true) {frames : List Int}
    (indented : Bool) :
    Brings (Poised ((Bounds.plain limit frames).inside indented) rows) (variableList endDelimited items indented)
      fun ends page => ∃ later,
        ((items.any fun item => item.trailing.any Token.isNewline) = false → later = frames) ∧
        page.Poised ((Bounds.plain limit later).inside ends.1) (Stmt.variablesRows endDelimited items) := by
  induction items generalizing indented frames rows with
  | nil => exact .pure fun page poised => ⟨frames, fun _ => rfl, poised.forget⟩
  | cons item others ih =>
    obtain ⟨declared, trailing⟩ := item
    obtain ⟨declaredFormed, trailingFormed⟩ := formed _ List.mem_cons_self
    have later := fun {frames : List Int} {rows : Nat} => @ih rows
      (fun item member => formed item (List.mem_cons_of_mem _ member))
      (fun item member => fit item (List.mem_cons_of_mem _ member)) frames
    have rest : ∀ openEnd indented, Brings
        (Poised ((Bounds.plain limit frames).inside indented)
          (if !others.isEmpty || endDelimited then 0 else declared.target.rowsBehind 2)) (do
          let indented ← variableTrivia trailing indented
          if others.isEmpty then return (indented, openEnd) else variableList endDelimited others indented)
        fun ends page => ∃ later,
          (((⟨declared, trailing⟩ :: others).any fun item => item.trailing.any Token.isNewline) = false →
            later = frames) ∧
          page.Poised ((Bounds.plain limit later).inside ends.1)
            (Stmt.variablesRows endDelimited (⟨declared, trailing⟩ :: others)) := by
      intro openEnd indented
      refine (poised_variableTrivia shown trailingFormed le (fit _ List.mem_cons_self) indented).bind
        fun indented => ?_
      rintro page ⟨between, kept, poised⟩
      cases others with
      | nil => exact ⟨between, fun none => kept (by simpa using none), poised⟩
      | cons next others =>
        obtain ⟨last, same, ends⟩ := later indented page poised
        refine ⟨last, fun none => ?_, ends⟩
        rw [List.any_cons, Bool.or_eq_false_iff] at none
        exact (same none.2).trans (kept none.1)
    unfold variableList
    refine (poised_repeatedKeyword shown declaredFormed indented).bind fun indented => ?_
    refine poised_openFrame.bind fun _ => ?_
    refine (framing shown declaredFormed.1 (contained shown _ declaredFormed.1)).bind fun _ => ?_
    refine (Brings.framed fun inner _ => poised_dropSpace).bind fun _ => poised_closeFrame.bind fun _ => ?_
    refine .read fun page => .ite (fun delimited => ?_) fun last => ?_
    · refine (poised_write rfl true).bind fun _ => ?_
      have further := fun openEnd => rest openEnd indented
      simp only [if_pos delimited] at further
      exact further _
    · have further := fun openEnd => rest openEnd indented
      simp only [if_neg last] at further
      refine .optional _ (fun _ => ?_) (fun _ _ => id) (further _)
      exact within_placeSemicolon.poised quiet_placeSemicolon.inner

omit shown in
theorem poised_endLine {page : Page} {test : Bool} (shown : test = true → page.onBlankLine = false)
    (poised : page.Poised bounds rows) :
    (after (if test then do newline .stay; setLineEnded true else pure () : Print Unit) page).Poised bounds
      (max 1 rows) := by
  cases test with
  | false => exact poised.relax (Nat.le_max_right 1 rows)
  | true =>
    have none : page.buffer.breaks = 0 := by
      have blank : ¬page.onBlankLine = true := by
        rw [shown rfl]
        exact Bool.false_ne_true
      have empty := mt poised.2.tidy.neat.onBlankLine_iff.mpr blank
      omega
    have alone : page.Poised bounds 0 := ⟨poised.1, poised.2.stay poised.2.tidy (.refl page) (Nat.le_of_eq none)⟩
    exact (poised_setLineEnded true _ (poised_newline_stay page alone)).relax (Nat.le_max_left 1 rows)

theorem poised_declaration {keyword : Token} {afterKeyword : Trivia} {declared : Series Variable}
    (keywordFormed : WordFormed drawn keyword) (afterFormed : SlotFormed drawn afterKeyword)
    (formed : Variable.ItemsFormed drawn declared.items) (written : Bool) {limit depth : Nat} (le : depth ≤ limit)
    (fit : ∀ item ∈ declared.items, slotWithin true (depth + 1) item.trailing = true) {frames : List Int} :
    Brings (Within (.plain limit frames) rows) (declaration keyword afterKeyword declared written)
      fun _ page => ∃ later,
        ((declared.items.any fun item => item.trailing.any Token.isNewline) = false → later = frames) ∧
        page.Poised (.plain limit later) (max 1 (Stmt.variablesRows declared.endDelimited declared.items)) := by
  unfold declaration
  refine (within_word shown keywordFormed true).bind fun _ => (poised_indenting shown afterFormed).bind
    fun moved => ?_
  refine (poised_variableList shown declared.endDelimited formed le fit moved).bind fun ends => ?_
  obtain ⟨indented, openEnd⟩ := ends
  refine .each fun later _ => ?_
  refine .optional (Poised ((Bounds.plain limit later).inside indented)
    (Stmt.variablesRows declared.endDelimited declared.items)) (fun empty => ?_) (fun _ _ => id) ?_
  · rw [List.isEmpty_iff.mp empty]
    exact (poised_semicolonIf written).behind fun _ _ => Poised.forget
  · refine poised_closing (fun _ => poised_stepBack) (Nat.le_max_right 1 _) ?_
    intro here stands
    have ended := @poised_endLine _ _ here (!openEnd && !here.onBlankLine && here.forDepth == 0)
      (fun test => by simp only [Bool.and_eq_true, Bool.not_eq_true'] at test; exact test.1.2) stands
    rwa [Nat.max_eq_right (Nat.le_max_left 1 _)] at ended

theorem poised_enumerationMembers {afterKeyword : Trivia} {name : Expr} {afterOpen : Trivia}
    {members : Series Expr} (keywordFormed : SlotFormed drawn afterKeyword)
    (nameFormed : name.Formed drawn) (openFormed : SlotFormed drawn afterOpen)
    (membersFormed : Expr.ItemsFormed drawn members.items) {framed : Bool}
    (unframed : framed = false → bounds.frames = [])
    (nameFit : bounds.Passes fun depth => name.balanced framed bounds.stepping depth)
    (membersFit : bounds.Passes fun depth =>
      Expr.entriesBalanced framed bounds.stepping (depth + 1) members.items) :
    Brings (Within bounds rows) (enumerationMembers afterKeyword name afterOpen members)
      fun _ => Poised bounds.deeper 2 := by
  unfold enumerationMembers
  refine (within_write rfl true).bind fun _ => ?_
  refine (poised_plain shown keywordFormed (by decide) rfl).bind fun _ => ?_
  refine (placing shown nameFormed (contained shown _ nameFormed unframed nameFit _)).bind fun _ => ?_
  refine (poised_write rfl true).bind fun _ => poised_indented shown openFormed ?_
  refine poised_dropSpace.bind fun _ => ?_
  have inner : bounds.deeper.Passes fun depth => Expr.entriesBalanced framed bounds.stepping depth members.items :=
    membersFit.deeper
  exact (@containedItems _ shown _ membersFormed _ bounds.deeper unframed inner _ true _).behind
    fun _ _ => Poised.forget

omit shown in
theorem poised_closeEnumeration (written : Bool) :
    Brings (Poised bounds.deeper rows) (closeEnumeration written) fun _ => Poised bounds 0 := by
  have braced : Brings (Poised bounds.deeper rows)
      (modify fun page => (page.setIndentation .left).dropLine.write "\x7d") fun _ => Poised bounds 0 :=
    fun page poised => ⟨List.cons_ne_nil _ _,
      poised.2.left (moves_closeEnumeration poised.2.tidy).kept.tidy rfl rfl rfl (Nat.le_refl 0)⟩
  exact braced.bind fun _ => poised_closingSemicolon written

theorem poised_remark (form : RemarkForm) {token : Token} (formed : WordFormed drawn token) :
    Brings (Within bounds rows) (remark form token) fun _ => Poised bounds 1 := by
  unfold remark
  refine .ite (fun _ => .get fun page => .ite (fun ended => ?_) fun _ => ?_) fun _ => ?_
  · rintro here ⟨rfl, within⟩
    have behind : Brings (Poised bounds rows) (do dropBlanks; ensureSpace; writeToken token; newline .stay)
        fun _ => Poised bounds 1 := by
      refine poised_dropBlanks.bind fun _ => poised_ensureSpace.bind fun _ => ?_
      exact (poised_word shown formed false).bind fun _ => poised_newline_stay
    exact behind here ⟨within.tidy.ended ended, within⟩
  · rintro here ⟨rfl, within⟩
    exact (within_word shown formed true here within).relax (Nat.zero_le 1)
  · refine (within_word shown formed false).bind fun _ => ?_
    exact poised_dropSpace.behind fun _ _ poised => poised.relax (Nat.zero_le 1)

/-- The statements of a block are one deeper if they stand on lines of their own, and other ones than a lone
expression do. -/
theorem poised_openBlock {afterOpen : Trivia} (formed : SlotFormed drawn afterOpen) (body : List Stmt) :
    Brings (Within bounds rows) (openBlock afterOpen body)
      fun opened page => (opened.2 = false → ∀ depth, Stmt.bodyDepth depth body = depth) ∧
        page.Poised (bounds.inside opened.2) 2 := by
  have taken : Brings (Within bounds rows) (modifyGet takeBlockRequest) fun _ => Within bounds rows := by
    intro page within
    show Within bounds rows page.takeBlockRequest.2
    unfold takeBlockRequest
    split
    · exact within
    · exact ⟨⟨within.tidy.tabs, within.tidy.neat, within.tidy.ended⟩, within.nonneg, within.admitted,
        within.requests, within.frames, within.rows⟩
  have behind : ∀ (request : BlockRequest) (mustIndent : Bool),
      (mustIndent = false → ∀ depth, Stmt.bodyDepth depth body = depth) → Brings (Poised bounds 0) (do
        let moved ← trivia afterOpen { move := .right }
        if mustIndent && !moved then
          newline .right
        let onLines := moved || mustIndent
        if !onLines then
          ensureSpace
        if body.length = 1 then
          modify Page.exempt
        return (request, onLines))
      fun opened page => (opened.2 = false → ∀ depth, Stmt.bodyDepth depth body = depth) ∧
        page.Poised (bounds.inside opened.2) 2 := by
    intro request mustIndent stays
    refine (poised_indenting shown formed).bind fun moved => ?_
    refine .optional (Poised (bounds.inside (moved || mustIndent)) 2) (fun both => ?_) (fun kept page poised => ?_) ?_
    · rw [Bool.and_eq_true, Bool.not_eq_true'] at both
      rw [both.1, both.2]
      exact poised_newline_right.behind fun _ _ => Poised.forget
    · cases moved with
      | true => exact poised
      | false =>
        have none : mustIndent = false := by simpa using kept
        rw [none]
        exact poised
    · refine .optional _ (fun _ => poised_ensureSpace) (fun _ _ => id) ?_
      refine .optional _ (fun _ => within_exempt.poised quiet_exempt.inner) (fun _ _ => id) ?_
      refine .pure fun page poised => ⟨fun none => ?_, poised⟩
      exact stays (Bool.or_eq_false_iff.mp none).2
  unfold openBlock
  refine .get fun page => .optional (Within bounds rows) (fun visible => ?_) (fun _ here isPage => ?_) ?_
  · rintro here ⟨rfl, within⟩
    have begun : here.Begun := by
      intro none
      have blank : here.onBlankLine = true := within.tidy.neat.onBlankLine_iff.mpr (.inl none)
      rw [blank] at visible
      cases visible
    exact (poised_ensureSpace here ⟨begun, within⟩).2
  · rw [isPage.1]
    exact isPage.2
  · refine taken.bind fun request => (within_write rfl false).bind fun _ => ?_
    refine behind request _ fun none depth => ?_
    rcases body with _ | ⟨only, _ | ⟨next, others⟩⟩
    · rfl
    · exact if_pos (by simpa using (Bool.or_eq_false_iff.mp none).2)
    · cases none

omit shown in
theorem poised_closeBlockStatement (onLines written : Bool) :
    Brings (Poised bounds rows) (closeBlockStatement onLines written) fun _ => Poised bounds 2 := by
  unfold closeBlockStatement
  intro page poised
  refine Poised.forget (poised_endLine (fun test => ?_) poised)
  rw [Bool.and_eq_true, Bool.not_eq_true'] at test
  exact test.2

omit shown in
theorem poised_brace (request : BlockRequest) (written : Bool) :
    Brings (Poised bounds rows) (do
      write "\x7d"
      semicolonIf written
      if !request.noNewlineAfter then
        modify fun page => page.ensureNewline .stay
      setLineEnded true) fun _ => Poised bounds 1 := by
  refine (poised_write rfl false).bind fun _ => ?_
  refine (poised_closingSemicolon written).bind fun _ => ?_
  refine .optional (Poised bounds 1) (fun _ page poised => ?_)
    (fun _ page poised => poised.relax (Nat.zero_le 1)) (poised_setLineEnded true)
  show Poised bounds 1 (page.ensureNewline .stay)
  unfold ensureNewline
  split
  · exact poised.relax (Nat.zero_le 1)
  · exact poised_newline_stay page poised

omit shown in
theorem poised_closeBlock (request : BlockRequest) (onLines written : Bool) :
    Brings (Poised (bounds.inside onLines) rows) (closeBlock request onLines written)
      fun _ => Poised bounds 1 := by
  unfold closeBlock
  cases onLines with
  | true =>
    refine poised_dropBlanks.bind fun _ => ?_
    exact (poised_newline_left fun _ _ => by decide).bind fun _ => poised_brace request written
  | false =>
    refine poised_dropSpace.bind fun _ => .read fun page => ?_
    exact .optional _ (fun _ => poised_ensureSpace) (fun _ _ => id) (poised_brace request written)

omit shown in
theorem poised_newline_of_ne {move : Move} (stays : move ≠ .right) :
    Brings (Poised bounds rows) (newline move) fun _ => Poised bounds (rows + 1) := by
  refine Brings.poised (quiet_newline move).inner fun page within => within.started move rfl rfl ?_
  obtain ⟨_, same⟩ | same := indentation_newline within.tidy move
  · rw [same]
    exact within.admitted
  · rw [same]
    exact within.admitted.less (indentationAfter_of_ne within.nonneg stays)

omit shown in
theorem poised_back : Brings (Poised bounds.deeper rows) (modify fun page => page.setIndentation .left)
    fun _ => Poised bounds rows :=
  fun _ poised => ⟨poised.1,
    poised.2.left (moves_setIndentation poised.2.tidy .left).kept.tidy rfl rfl rfl poised.2.rows⟩

theorem poised_condition {afterOpen : Trivia} {inner : List Expr} {afterClose : Trivia}
    (formed : (Expr.grouping afterOpen inner afterClose).Formed drawn) {framed stepping : Bool}
    {limit depth : Nat} {frames : List Int} (unframed : framed = false → frames = []) (le : depth ≤ limit)
    (fit : (Expr.grouping afterOpen inner afterClose).balanced framed stepping depth = true)
    (request : GroupRequest) :
    Brings (Poised (.plain limit frames) rows) (do
        modify fun page => page.requestGroup request
        Print.expr (.grouping afterOpen inner afterClose))
      fun _ => Poised ((Bounds.plain limit frames).inside stepping) 2 := by
  intro page poised
  let requested : Bounds := ⟨some limit, stepping, 1, frames⟩
  have asked : (page.requestGroup request).Within requested rows := by
    have none : page.groupRequests = [] := List.length_eq_zero_iff.mp (Nat.le_zero.mp poised.2.requests)
    refine ⟨⟨poised.2.tidy.tabs, poised.2.tidy.neat, poised.2.tidy.ended⟩, poised.2.nonneg, ?_, ?_,
      poised.2.frames, poised.2.rows⟩
    · intro other isLimit
      cases isLimit
      have room := poised.2.indentation_le
      show page.indentation ≤ _
      omega
    · show (request :: page.groupRequests).length ≤ 1
      rw [none]
      exact Nat.le_refl 1
  have passes : requested.Passes fun depth =>
      (Expr.grouping afterOpen inner afterClose).balanced framed stepping depth := Bounds.passes_of_le le fit
  have begun := ((steady_expr shown formed).inner _ asked.tidy poised.1).2
  obtain ⟨openFormed, innerFormed, closeFormed⟩ := formed
  simp only [Expr.balanced] at passes
  have innerFit : (requested.inside (afterOpen.any Token.isNewline)).Passes fun depth =>
      Expr.listBalanced framed stepping depth inner := passes.left.left.right.inside
  have laid := @containedAll _ shown _ innerFormed _ (requested.inside (afterOpen.any Token.isNewline)) unframed
    innerFit
  obtain ⟨answered, within⟩ :=
    @within_grouping requested rows _ shown _ unframed _ _ _ openFormed closeFormed passes laid _ asked
  refine ⟨begun, within.tidy, within.nonneg, ?_, answered, within.frames, within.tidy.neat.breaks_le_two⟩
  have room := within.admitted limit rfl
  rw [Nat.le_zero.mp answered] at room
  rw [Bounds.admits_inside]
  cases stepping <;> exact room

/-- Behind the condition of an `if`, the page may be one deeper only if the branch has been indented and leaves
no blank line behind it. -/
theorem poised_openConditional {afterKeyword : Trivia} {condition : Expr}
    (keywordFormed : SlotFormed drawn afterKeyword) (conditionFormed : condition.Formed drawn)
    {whenTrue : Stmt} {framed : Bool} {limit depth : Nat} {frames : List Int}
    (unframed : framed = false → frames = []) (le : depth ≤ limit)
    (fit : Stmt.conditionBalanced framed depth condition whenTrue = true) :
    Brings (Within (.plain limit frames) rows) (openConditional afterKeyword condition whenTrue.isBlock)
      fun indented page => ∃ deeper : Bool, (deeper = true → indented = true ∧ whenTrue.rowsBehind < 2) ∧
        page.Poised ((Bounds.plain limit frames).inside deeper) 2 := by
  have found : ∃ stepping, condition.balanced framed stepping depth = true ∧ (stepping = true →
      (!whenTrue.isBlock && condition.isGrouping) = true → whenTrue.rowsBehind < 2) := by
    rw [Stmt.conditionBalanced, Bool.or_eq_true, Bool.and_eq_true] at fit
    obtain calm | ⟨steps, few⟩ := fit
    · exact ⟨false, calm, nofun⟩
    · refine ⟨true, steps, fun _ asks => ?_⟩
      rw [Bool.and_eq_true, Bool.not_eq_true'] at asks
      simpa [asks.1, asks.2] using few
  obtain ⟨stepping, balanced, few⟩ := found
  unfold openConditional
  refine (within_write rfl true).bind fun _ => ?_
  refine (poised_plain shown keywordFormed (by decide) rfl).bind fun _ => ?_
  refine .optional _ (fun _ => (within_requestBlock _).poised (quiet_requestBlock _).inner) (fun _ _ => id) ?_
  refine .get fun before => .ite (fun asks => ?_) fun keeps => ?_
  · rw [Bool.and_eq_true] at asks
    cases condition with
    | grouping afterOpen inner afterClose =>
      rintro here ⟨rfl, poised⟩
      have ends := poised_condition shown conditionFormed unframed le balanced
        { move := some .right, respect := some true } here poised
      refine ⟨_, fun both => ?_, ends.indented poised.2.indentation_le⟩
      rw [Bool.and_eq_true] at both
      exact ⟨Bool.and_eq_true_iff.mpr ⟨asks.1, both.2⟩, few both.1 (Bool.and_eq_true_iff.mpr asks)⟩
    | _ => cases asks.2
  · rintro here ⟨rfl, poised⟩
    have fit : (⟨some limit, stepping, 0, frames⟩ : Bounds).Passes fun depth =>
        condition.balanced framed stepping depth := Bounds.passes_of_le le balanced
    have laid := placing shown conditionFormed (contained shown _ conditionFormed unframed fit _) here
      ⟨poised.1, Within.calm.mpr poised.2⟩
    exact ⟨false, nofun, laid.1, (Within.calm.mp laid.2).forget⟩

theorem poised_returning {slot : Trivia} (formed : SlotFormed drawn slot) {how : Instruction}
    (respect : how.respect = true) (breaks : how.leading ≠ .none) (stays : how.move ≠ .right) {framed : Bool}
    {limit depth : Nat} {frames : List Int} (unframed : framed = false → frames = []) (le : depth ≤ limit)
    (fit : slotWithin framed depth slot = true) {deeper : Bool}
    (steps : deeper = true → how.move = .left ∧ rows < 2) :
    Brings (Poised ((Bounds.plain limit frames).inside deeper) rows) (trivia slot how)
      fun moved page => moved = slot.any Token.isNewline ∧
        page.Poised ((Bounds.plain limit frames).inside (deeper && !moved)) (slotRows true rows slot) := by
  intro page poised
  obtain ⟨moves, _⟩ := movesTo_trivia shown formed how poised.2.tidy poised.1
  obtain ⟨reaches, ends⟩ := trivia_reaches shown how formed poised.2.tidy poised.1 poised.2.rows
  rw [respect] at ends
  refine ⟨moved_of_respect respect breaks slot, moves.kept.begun poised.1,
    poised.2.reached reaches moves.kept.tidy ends rfl rfl ?_⟩
  show Bounds.Admits ((Bounds.plain limit frames).inside (deeper && !(page.trivia slot how).1)) _ _
  have nonneg := poised.2.nonneg
  have few := poised.2.rows
  have level := Bounds.admits_inside.mp poised.2.admitted
  rw [Bounds.admits_inside]
  cases moved : (page.trivia slot how).1 with
  | false =>
    rw [reaches.stays moved, Bool.not_false, Bool.and_true]
    exact level
  | true =>
    rw [Bool.not_true, Bool.and_false]
    have low : (page.trivia slot how).2.indentation ≤ limit := by
      obtain ⟨two, same⟩ | same | ⟨isFramed, _, _, token, member, isBreak, same⟩ := reaches.goes moved
      · cases deeper with
        | true =>
          have below := (steps rfl).2
          omega
        | false => simpa [same] using level
      · rw [same]
        cases deeper with
        | true =>
          rw [(steps rfl).1]
          simp [indentationAfter] at level ⊢
          omega
        | false => exact Int.le_trans (indentationAfter_of_ne nonneg stays) (by simpa using level)
      · rw [same]
        cases framed with
        | false => exact absurd (poised.2.frames.trans (unframed rfl)) isFramed
        | true =>
          have shallow := indentHint_le fit member isBreak
          omega
    simpa using low

/-- The line between the branches of an `if` takes back the step that its condition may have made. -/
theorem poised_betweenBranches {between : Trivia} (formed : SlotFormed drawn between) {framed : Bool}
    {limit depth : Nat} {frames : List Int} (unframed : framed = false → frames = []) (le : depth ≤ limit)
    (fit : slotWithin framed depth between = true) {indented deeper : Bool}
    (steps : deeper = true → indented = true ∧ rows < 2) :
    Brings (Poised ((Bounds.plain limit frames).inside deeper) rows) (betweenBranches between indented)
      fun _ => Poised (.plain limit frames) (Stmt.branchRows rows between) := by
  have noRight : (if indented then Move.left else .stay) ≠ .right := by cases indented <;> decide
  have toLeft : deeper = true → (if indented then Move.left else .stay) = .left ∧ rows < 2 := by
    intro isDeeper
    rw [(steps isDeeper).1]
    exact ⟨rfl, (steps isDeeper).2⟩
  unfold betweenBranches Stmt.branchRows
  refine (poised_returning shown formed rfl Leading.noConfusion noRight unframed le fit toLeft).bind
    fun moved => ?_
  refine .assuming fun isMoved => ?_
  rw [← isMoved]
  cases moved with
  | true =>
    rw [Bool.not_true, Bool.and_false]
    exact .pure fun _ => id
  | false =>
    rw [Bool.not_false, Bool.and_true]
    cases deeper with
    | false => exact poised_newline_of_ne noRight
    | true =>
      have few : slotRows true rows between < 2 :=
        Nat.lt_of_le_of_lt (slotRows_of_unbroken isMoved.symm) (toLeft rfl).2
      rw [if_pos rfl, (toLeft rfl).1]
      exact @poised_newline_left (.plain limit frames) _ fun _ _ => few

theorem poised_openElse {between afterElse : Trivia} (betweenFormed : SlotFormed drawn between)
    (elseFormed : SlotFormed drawn afterElse) {framed : Bool} {limit depth : Nat} {frames : List Int}
    (unframed : framed = false → frames = []) (le : depth ≤ limit)
    (fit : slotWithin framed depth between = true) {indented deeper continues : Bool}
    (steps : deeper = true → indented = true ∧ rows < 2)
    (elseFit : (continues || slotWithin framed (depth + 1) afterElse) = true) :
    Brings (Poised ((Bounds.plain limit frames).inside deeper) rows)
      (openElse between indented afterElse continues)
      fun moved page => moved = (!continues && afterElse.any Token.isNewline) ∧
        page.Poised ((Bounds.plain limit frames).inside moved) 2 := by
  unfold openElse
  refine (poised_betweenBranches shown betweenFormed unframed le fit steps).bind fun _ => ?_
  refine .optional (Poised (.plain limit frames) 2)
    (fun _ => poised_dropBlanks.behind fun _ _ => Poised.forget) (fun _ _ => Poised.forget) ?_
  refine poised_ensureSpace.bind fun _ => (poised_write rfl true).bind fun _ => ?_
  cases continues with
  | true =>
    refine (poised_plain shown elseFormed (by decide) rfl).bind fun _ => ?_
    exact .pure fun _ poised => ⟨rfl, poised.forget⟩
  | false =>
    have opened := @poised_open (Bounds.plain limit frames) 0 _ shown _ unframed _ elseFormed
      (Bounds.passes_plain le elseFit)
    exact opened.behind fun _ _ ends => ⟨ends.1, ends.2.forget⟩

omit shown in
theorem poised_closeElse (continues moved : Bool) :
    Brings (Poised (bounds.inside moved) rows) (closeElse continues moved) fun _ => Poised bounds rows := by
  unfold closeElse
  refine poised_closing (fun _ => poised_back) (Nat.le_refl rows) ?_
  exact .ite (fun _ => poised_setLineEnded true) fun _ => .pure fun _ => id

theorem poised_openLoop {keyword : Token} {afterKeyword : Trivia} {condition : Expr}
    (keywordFormed : WordFormed drawn keyword) (afterFormed : SlotFormed drawn afterKeyword)
    (conditionFormed : condition.Formed drawn) {framed : Bool} (unframed : framed = false → bounds.frames = [])
    (fit : bounds.Passes fun depth => condition.balanced framed bounds.stepping depth) :
    Brings (Within bounds rows) (openLoop keyword afterKeyword condition) fun _ => Poised bounds 2 := by
  unfold openLoop
  refine (within_word shown keywordFormed true).bind fun _ => ?_
  refine (poised_plain shown afterFormed (by decide) rfl).bind fun _ => ?_
  exact (placing shown conditionFormed (contained shown _ conditionFormed unframed fit _)).behind
    fun _ _ => Poised.forget

theorem poised_openDo {afterKeyword : Trivia} (formed : SlotFormed drawn afterKeyword) :
    Brings (Within bounds rows) (openDo afterKeyword) fun _ => Poised bounds 2 := by
  unfold openDo
  refine (within_write rfl true).bind fun _ => (poised_plain shown formed (by decide) rfl).bind fun _ => ?_
  exact ((within_requestBlock _).poised (quiet_requestBlock _).inner).behind fun _ _ => Poised.forget

theorem poised_closeDo {between : Trivia} {condition : Expr} (betweenFormed : SlotFormed drawn between)
    (conditionFormed : condition.Formed drawn) {framed : Bool} (unframed : framed = false → bounds.frames = [])
    (fit : bounds.Passes fun depth => condition.balanced framed bounds.stepping depth) (written : Bool) :
    Brings (Poised bounds rows) (closeDo between condition written) fun _ => Poised bounds 1 := by
  have rest : ∀ {rows}, Brings (Poised bounds rows) (do
      write "until" true
      expr condition
      dropSpace
      let _ ← semicolonAndNewline written .stay) fun _ => Poised bounds 1 := by
    intro rows
    refine (poised_write rfl true).bind fun _ => ?_
    refine (placing shown conditionFormed (contained shown _ conditionFormed unframed fit _)).bind fun _ => ?_
    exact poised_dropSpace.bind fun _ => (poised_semicolonAndNewline written).bind fun _ => .pure fun _ => id
  unfold closeDo
  refine (poised_plain shown betweenFormed (by decide) rfl).bind fun _ => poised_dropBlanks.bind fun _ => ?_
  refine .read fun page => .ite (fun _ => ?_) fun _ => ?_
  · exact poised_ensureSpace.bind fun _ => rest
  · exact poised_newline_stay.bind fun _ => rest

theorem poised_openFor {afterKeyword afterOpen : Trivia} (keywordFormed : SlotFormed drawn afterKeyword)
    (openFormed : SlotFormed drawn afterOpen) {framed : Bool} (unframed : framed = false → bounds.frames = [])
    (fit : bounds.Passes fun depth => slotWithin framed (depth + 1) afterOpen) :
    Brings (Within bounds rows) (openFor afterKeyword afterOpen)
      fun moved page => moved = afterOpen.any Token.isNewline ∧ page.Poised (bounds.inside moved) 2 := by
  have quiet : Quiet (modify enterFor) :=
    quiet_fields (fun _ => rfl) (fun _ => rfl) (fun _ => id) fun _ _ => rfl
  have entered : ∀ {rows}, Brings (Poised bounds rows) (modify enterFor) fun _ => Poised bounds rows :=
    (within_fields quiet (fun _ => ⟨rfl, rfl, rfl⟩) fun _ => rfl).poised quiet.inner
  unfold openFor
  refine (within_write rfl true).bind fun _ => ?_
  refine (poised_plain shown keywordFormed (by decide) rfl).bind fun _ => ?_
  refine (poised_write rfl false).bind fun _ => entered.bind fun _ => ?_
  exact (poised_open shown unframed openFormed fit).behind fun _ _ ends => ⟨ends.1, ends.2.forget⟩

theorem poised_exprOr {missing : Print Unit} (skips : Brings (Poised bounds rows) missing fun _ => Poised bounds rows)
    {option : Option Expr} (formed : OptionFormed drawn option) {framed : Bool}
    (unframed : framed = false → bounds.frames = []) (isStepping : bounds.stepping = true)
    (fit : bounds.Passes fun depth => Expr.optionBalanced framed depth option) :
    Brings (Poised bounds rows) (exprOr missing option) fun _ => Poised bounds (Expr.rowsBehind? rows option) := by
  cases option with
  | none => exact skips
  | some value =>
    refine placing shown formed (contained shown _ formed unframed ?_ rows)
    rw [isStepping]
    exact fit

theorem poised_forHeader {afterOpen afterStart : Trivia} {condition : Option Expr} {afterCondition : Trivia}
    {increment : Option Expr} {afterIncrement afterClose : Trivia}
    (startFormed : SlotFormed drawn afterStart) (conditionFormed : OptionFormed drawn condition)
    (afterConditionFormed : SlotFormed drawn afterCondition)
    (incrementFormed : OptionFormed drawn increment)
    (afterIncrementFormed : SlotFormed drawn afterIncrement)
    (closeFormed : SlotFormed drawn afterClose) {framed : Bool} {limit depth : Nat} {frames : List Int}
    (unframed : framed = false → frames = []) (le : depth ≤ limit)
    (fit : Stmt.headerBalanced framed depth afterOpen condition afterCondition increment afterIncrement = true) :
    Brings (Poised ((Bounds.plain limit frames).inside (afterOpen.any Token.isNewline)) rows)
      (forHeader afterStart condition afterCondition increment afterIncrement
        (afterOpen.any Token.isNewline) afterClose)
      fun _ => Poised (.plain limit frames) 2 := by
  have quiet : Quiet (modify leaveFor) :=
    quiet_fields (fun _ => rfl) (fun _ => rfl) (fun _ => id) fun _ _ => rfl
  have left : ∀ {rows}, Brings (Poised (.plain limit frames) rows) (modify leaveFor)
      fun _ => Poised (.plain limit frames) rows :=
    (within_fields quiet (fun _ => ⟨rfl, rfl, rfl⟩) fun _ => rfl).poised quiet.inner
  simp only [Stmt.headerBalanced, Bool.and_eq_true] at fit
  obtain ⟨⟨conditionFit, incrementFit⟩, few⟩ := fit
  have passes : ∀ option, Expr.optionBalanced framed (depthBehind afterOpen depth) option = true →
      ((Bounds.plain limit frames).inside (afterOpen.any Token.isNewline)).Passes fun depth =>
        Expr.optionBalanced framed depth option :=
    fun option holds => Bounds.Passes.inside (Bounds.passes_plain le holds)
  rw [forHeader_eq]
  refine (poised_plain shown startFormed (by decide) rfl).bind fun _ => ?_
  refine (poised_exprOr shown (.pure fun _ => id) conditionFormed unframed rfl (passes _ conditionFit)).bind
    fun _ => ?_
  refine poised_dropSpace.bind fun _ => (poised_write rfl true).bind fun _ => ?_
  refine (poised_plain shown afterConditionFormed (by decide) rfl).bind fun _ => ?_
  refine (poised_exprOr shown poised_dropSpace incrementFormed unframed rfl (passes _ incrementFit)).bind
    fun _ => ?_
  unfold closeFor
  refine (poised_trivia shown (Bounds.alwaysFramed _) afterIncrementFormed Move.noConfusion
    Bool.noConfusion).bind fun broken => ?_
  refine .optional _ (fun _ => poised_dropSpace) (fun _ _ => id) ?_
  refine poised_closing (fun moved => poised_newline_left fun _ _ => ?_) (Nat.le_succ _) ?_
  · simpa [moved] using few
  · refine (poised_write rfl true).bind fun _ => left.bind fun _ => ?_
    exact (poised_plain shown closeFormed (by decide) rfl).behind fun _ _ => Poised.forget

theorem poised_jump {word : String} (visible : Fragment.ofText word = .text word) {value : Option Expr}
    (formed : OptionFormed drawn value) {framed : Bool} (unframed : framed = false → bounds.frames = [])
    (isStepping : bounds.stepping = true)
    (fit : bounds.Passes fun depth => Expr.optionBalanced framed depth value) (written : Bool) :
    Brings (Within bounds rows) (jump word value written) fun _ => Poised bounds 1 := by
  have ends : ∀ {rows}, Brings (Poised bounds rows) (do let _ ← semicolonAndNewline written .stay : Print Unit)
      fun _ => Poised bounds 1 :=
    (poised_semicolonAndNewline written).bind fun _ => .pure fun _ => id
  unfold jump
  cases value with
  | none => exact (within_write visible false).bind fun _ => ends
  | some value =>
    have spaced : Brings (fun page => page.Poised bounds 0 ∧ ∃ earlier, page.buffer = .text word :: earlier)
        (write " ") fun _ => Poised bounds 0 := by
      rintro page ⟨poised, earlier, shape⟩
      have neat := poised.2.tidy.neat
      rw [shape] at neat
      have tidy : (page.write " ").Tidy := by
        refine ⟨poised.2.tidy.tabs, ?_, fun _ => List.cons_ne_nil _ _⟩
        show Buffer.Neat .tab (Fragment.space :: page.buffer)
        rw [shape]
        exact .space neat
      exact ⟨begun_write " " false, poised.2.stay tidy (page.sameLevel_write " " false) poised.2.rows⟩
    have opened : Brings (Within bounds rows) (write word)
        fun _ page => page.Poised bounds 0 ∧ ∃ earlier, page.buffer = .text word :: earlier :=
      fun page within => ⟨within_write visible false page within, page.buffer,
        congrArg (· :: page.buffer) visible⟩
    refine opened.bind fun _ => spaced.bind fun _ => ?_
    refine (placing shown formed (contained shown _ formed unframed ?_ 0)).bind fun _ => ends
    rw [isStepping]
    exact fit

theorem poised_openDefine {afterKeyword : Trivia} {name : Expr}
    (keywordFormed : SlotFormed drawn afterKeyword) (nameFormed : name.Formed drawn) {framed : Bool}
    (unframed : framed = false → bounds.frames = [])
    (fit : bounds.Passes fun depth => name.balanced framed bounds.stepping depth) :
    Brings (Within bounds rows) (openDefine afterKeyword name) fun _ => Poised bounds 2 := by
  unfold openDefine
  refine (within_write rfl true).bind fun _ => ?_
  refine (poised_plain shown keywordFormed (by decide) rfl).bind fun _ => ?_
  refine (placing shown nameFormed (contained shown _ nameFormed unframed fit _)).bind fun _ => ?_
  exact poised_dropSpace.bind fun _ => poised_newline_stay.behind fun _ _ => Poised.forget

theorem poised_openSwitch {afterKeyword : Trivia} {subject : Expr} {afterOpen : Trivia}
    (keywordFormed : SlotFormed drawn afterKeyword) (subjectFormed : subject.Formed drawn)
    (openFormed : SlotFormed drawn afterOpen) {framed : Bool} (unframed : framed = false → bounds.frames = [])
    (fit : bounds.Passes fun depth => subject.balanced framed bounds.stepping depth) :
    Brings (Within bounds rows) (openSwitch afterKeyword subject afterOpen)
      fun _ => Poised bounds.deeper 2 := by
  unfold openSwitch
  refine (within_write rfl true).bind fun _ => ?_
  refine (poised_plain shown keywordFormed (by decide) rfl).bind fun _ => ?_
  refine (placing shown subjectFormed (contained shown _ subjectFormed unframed fit _)).bind fun _ => ?_
  refine poised_ensureSpace.bind fun _ => (poised_write rfl true).bind fun _ => ?_
  refine (poised_indenting shown openFormed).bind fun moved => ?_
  cases moved with
  | true => exact .pure fun _ => id
  | false => exact poised_newline_right.behind fun _ _ => Poised.forget

/-- The statements of a branch are one deeper than its label, whose indentation is remembered. -/
theorem poised_openBranch {label : Option Expr} {afterKeyword afterColon : Trivia}
    (labelFormed : OptionFormed drawn label) (keywordFormed : SlotFormed drawn afterKeyword)
    (colonFormed : SlotFormed drawn afterColon) {framed : Bool} {limit depth : Nat} {frames : List Int}
    (unframed : framed = false → frames = []) (le : depth ≤ limit)
    (fit : Expr.optionBalanced framed depth label = true) :
    Brings (Within (.plain limit frames) rows) (openBranch label afterKeyword afterColon)
      fun saved page => (0 ≤ saved ∧ saved ≤ limit) ∧ page.Poised (.plain (limit + 1) frames) 2 := by
  have rest : ∀ {rows}, Brings (Poised (.plain limit frames) rows) (do
      dropSpace
      write ":" true
      let saved := (← get).indentation
      let moved ← trivia afterColon { move := .right }
      if !moved then
        newline .right
      return saved)
      fun saved page => (0 ≤ saved ∧ saved ≤ limit) ∧ page.Poised (.plain (limit + 1) frames) 2 := by
    intro rows
    refine poised_dropSpace.bind fun _ => (poised_write rfl true).bind fun _ => .get fun page => ?_
    rintro here ⟨rfl, poised⟩
    have bounded := And.intro poised.2.nonneg poised.2.indentation_le
    have indented : Brings (Poised (.plain limit frames) 0) (do
        let moved ← trivia afterColon { move := .right }
        if !moved then
          newline .right
        return here.indentation)
        fun saved page => (0 ≤ saved ∧ saved ≤ limit) ∧ page.Poised (.plain (limit + 1) frames) 2 :=
      poised_indented shown colonFormed (.pure fun page deeper => ⟨bounded, deeper⟩)
    exact indented here poised
  unfold openBranch
  cases label with
  | none => exact (within_write rfl true).bind fun _ => rest
  | some label =>
    refine (within_write rfl true).bind fun _ => ?_
    refine (poised_plain shown keywordFormed (by decide) rfl).bind fun _ => ?_
    exact (placing shown labelFormed (contained shown _ labelFormed unframed (Bounds.passes_plain le fit) _)).bind
      fun _ => rest

omit shown in
theorem poised_closeSwitch (written : Bool) :
    Brings (Poised bounds.deeper rows) (closeSwitch written) fun _ => Poised bounds 0 := by
  unfold closeSwitch
  refine poised_dropBlanks.bind fun _ => (poised_newline_left fun _ _ => by decide).bind fun _ => ?_
  exact (poised_write rfl false).bind fun _ => poised_closingSemicolon written

end

end Print

end GmlLayout
