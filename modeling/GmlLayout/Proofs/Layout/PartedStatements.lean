import GmlLayout.Proofs.Layout.PartedEndings
import GmlLayout.Proofs.Layout.SteadyStatements

/-!
Statements whose tokens stay apart are laid out wherever their first text fits. The end of a `switch` branch
drops a whole line, and there is room behind it only because a line break stands in front of that line; so the
pages in between have to be tidy.
-/

namespace GmlLayout.Print

open Page

section

variable [Account] {fits : String → Prop} {last : Option Token} {drawn : Token → Prop}
  (proper : ∀ token, drawn token → token.kind ≠ .newline → token.Proper)

include proper

theorem clears_slot {slot : Trivia} (formed : SlotFormed drawn slot) (how : Instruction) :
    Brings (Clear last) (Print.slot slot how) fun _ => Clear none :=
  (brings_slot proper formed how).behind fun _ _ clear => clear.forget

theorem clears_trivia {slot : Trivia} (formed : SlotFormed drawn slot) (how : Instruction) :
    Brings (Clear last) (trivia slot how) fun _ => Clear none :=
  (brings_trivia proper formed how).behind fun _ _ stands => stands.forget.weaken fun _ _ => .inr trivial

omit proper in
theorem brings_newLine {α : Type} {rest : Unit → Print α} {post : α → Page → Prop} (moved : Bool)
    (move : Move) (further : Brings (Clear last) (rest ()) post) :
    Brings (Stands (fun text => moved = true ∨ fits text) last)
      (if !moved then newline move >>= rest else rest ()) post := by
  refine .optional (Clear last) (fun _ => brings_newline move) (fun hasMoved page stands => ?_) further
  exact stands.weaken fun _ _ => .inl (by simpa using hasMoved)

theorem clears_lines {slot : Trivia} (formed : SlotFormed drawn slot) (how : Instruction) (move : Move) :
    Brings (Stands fits last) (do
      let moved ← trivia slot how
      if !moved then
        newline move) fun _ => Clear (slotEnding slot last) := by
  refine (brings_trivia proper formed how).bind fun moved => ?_
  cases moved with
  | true => exact .pure fun _ stands => stands.weaken fun _ _ => .inl rfl
  | false => exact brings_newline move

theorem clears_expr {value : Expr} (formed : value.Formed drawn) (separate : value.separate = true) :
    Brings (Clear last) (Print.expr value) fun _ => Stands (fun _ => False) none :=
  (apart proper _ formed separate fun _ _ => trivial).behind fun _ _ stands => stands.nowhere.forget

theorem brings_hanging {value : Expr} (formed : value.Formed drawn) (separate : value.separate = true) :
    Brings (Clear last) (Print.expr value) fun _ => Hangs value.ending := by
  intro page clear
  have laid := apart proper _ formed separate (fun _ _ => trivial) page clear
  exact ⟨lineEnded_expr value page, laid.nowhere⟩

theorem brings_test {test : Expr} (formed : test.Formed drawn) (separate : test.separate = true)
    {next : Option String} (admits : test.admits next = true) :
    Brings (Clear last) (Print.expr test) fun _ => Awaits next := by
  intro page clear
  have laid := apart proper _ formed separate (fun _ _ => trivial) page clear
  refine .inr ⟨lineEnded_expr test page, laid.admitted.forget.weaken fun text leads => ?_⟩
  rw [Expr.admits, Option.mem_def.mp leads] at admits
  exact admits

theorem clears_word {word : Token} (formed : WordFormed drawn word) (allowed : fits word.lexeme) :
    Brings (Stands fits last) (writeToken word true) fun _ => Clear none := by
  have isProper := proper word formed.1 formed.2
  exact (brings_spaced isProper.shown isProper.sound (.inl allowed)).behind fun _ _ clear => clear.forget

theorem clears_repeatedKeyword {declared : Variable} (formed : declared.Formed drawn) (indented : Bool) :
    Brings (Clear none) (repeatedKeyword declared indented) fun _ => Clear none := by
  obtain ⟨target, keyword, afterKeyword⟩ := declared
  unfold repeatedKeyword
  cases keyword with
  | none => exact .pure fun _ => id
  | some keyword =>
    refine (clears_word proper formed.2.1 trivial).bind fun _ => ?_
    exact (clears_trivia proper formed.2.2 _).bind fun _ => .pure fun _ => id

theorem brings_variableTrivia {tight : Bool} {ending : Option Token} {trailing : Trivia}
    (formed : SlotFormed drawn trailing) (indented : Bool) :
    Brings (Releases tight ending) (variableTrivia trailing indented)
      fun _ => Releases tight (slotEnding trailing ending) := by
  have opened : Brings (Releases tight ending) (modify openFrame) fun _ => Releases tight ending :=
    fun _ releases => releases.fields rfl rfl
  have closed : Brings (Releases tight (slotEnding trailing ending)) (modify closeFrame)
      fun _ => Releases tight (slotEnding trailing ending) :=
    fun page releases => releases.fields (buffer_closeFrame page) (lineEnded_closeFrame page)
  have laid : ∀ how, Brings (Releases tight ending) (trivia trailing how)
      fun _ => Releases tight (slotEnding trailing ending) := by
    rintro how page (clear | ⟨isTight, hangs⟩)
    · exact .inl (clears_trivia proper formed how page clear)
    · refine .inr ⟨isTight, (lineEnded_trivia page trailing how).trans hangs.line, ?_⟩
      exact (hangs.stands.trivia proper formed how).nowhere
  unfold variableTrivia
  refine .ite (fun empty => ?_) fun _ => ?_
  · rw [List.isEmpty_iff.mp empty]
    exact .pure fun _ => id
  · refine opened.bind fun _ => (laid _).bind fun moved => ?_
    exact .ite (fun _ => .pure fun _ => id) fun _ => closed.bind fun _ => .pure fun _ => id

/-- The variables of a declaration. Where the end is left open, the line goes on behind the last of them. -/
theorem brings_variableList (endDelimited : Bool) {items : List (Item Variable)}
    (formed : Variable.ItemsFormed drawn items) (separate : items.all (·.value.target.separate) = true)
    (indented : Bool) : Brings (Clear none) (variableList endDelimited items indented)
      fun _ => Releases (!endDelimited) (variablesEnding items) := by
  induction items generalizing indented with
  | nil => exact .pure fun _ clear => .inl clear
  | cons item others ih =>
    obtain ⟨declared, trailing⟩ := item
    obtain ⟨declaredFormed, trailingFormed⟩ := formed _ List.mem_cons_self
    rw [List.all_cons, Bool.and_eq_true] at separate
    have later := ih (fun item member => formed item (List.mem_cons_of_mem _ member)) separate.2
    let delimited : Bool := !others.isEmpty || endDelimited
    have rest : ∀ openEnd indented, Brings (Releases (!delimited) declared.target.ending) (do
        let indented ← variableTrivia trailing indented
        if others.isEmpty then return (indented, openEnd) else variableList endDelimited others indented)
        fun _ => Releases (!endDelimited) (variablesEnding (⟨declared, trailing⟩ :: others)) := by
      intro openEnd indented
      refine (brings_variableTrivia proper trailingFormed indented).bind fun indented => ?_
      cases others with
      | nil => exact .pure fun _ => id
      | cons next others => exact (later indented).before fun _ releases => releases.clear rfl
    have placed : Brings (Hangs declared.target.ending) (modify placeSemicolon)
        fun _ => Releases (!delimited) declared.target.ending :=
      fun _ hangs => .inl hangs.stands.placeSemicolon
    have dropped : Brings (Hangs declared.target.ending) dropSpace fun _ => Hangs declared.target.ending :=
      fun _ hangs => ⟨hangs.line, hangs.stands.dropSpace.nowhere⟩
    have closed : Brings (Hangs declared.target.ending) (modify closeFrame)
        fun _ => Hangs declared.target.ending :=
      fun page hangs => hangs.fields (buffer_closeFrame page) (lineEnded_closeFrame page)
    unfold variableList
    refine (clears_repeatedKeyword proper declaredFormed indented).bind fun indented => ?_
    refine brings_openFrame.bind fun _ => (brings_hanging proper declaredFormed.1 separate.1).bind fun _ => ?_
    refine dropped.bind fun _ => closed.bind fun _ => .read fun page => ?_
    refine .ite (fun _ => ?_) fun undelimited => ?_
    · refine Brings.bind (fun here hangs => ?_) fun _ => rest _ _
      exact .inl (brings_inert .comma (by decide) true here hangs.stands).forget
    · refine .optional (Releases (!delimited) declared.target.ending) (fun _ => placed) (fun _ _ hangs => ?_)
        (rest _ _)
      exact .inr ⟨by simpa [delimited] using undelimited, hangs⟩

theorem brings_declaration {keyword : Token} {afterKeyword : Trivia} {declared : Series Variable}
    (keywordFormed : WordFormed drawn keyword) (afterFormed : SlotFormed drawn afterKeyword)
    (formed : Variable.ItemsFormed drawn declared.items)
    (separate : declared.items.all (·.value.target.separate) = true) (written : Bool)
    (allowed : fits keyword.lexeme) :
    Brings (Stands fits last) (declaration keyword afterKeyword declared written)
      fun _ => Releases (!declared.endDelimited) (variablesEnding declared.items) := by
  let tight := !declared.endDelimited
  let ending := variablesEnding declared.items
  have ended : Brings (Releases tight ending) (semicolonIf written) fun _ => Releases tight ending := by
    refine (brings_semicolonIf written).behind fun _ page releases => ?_
    exact releases.imp id fun ⟨isTight, hangs⟩ => ⟨(Bool.and_eq_true _ _ ▸ isTight).2, hangs⟩
  have back : Brings (Releases tight ending) stepBack fun _ => Releases tight ending :=
    fun page releases => .inl (brings_stepBack page releases.stands)
  have broken : Brings (Releases tight ending) (newline .stay) fun _ => Clear none :=
    fun page releases => releases.stands.newline .stay
  unfold declaration
  refine (clears_word proper keywordFormed allowed).bind fun _ => ?_
  refine (clears_trivia proper afterFormed _).bind fun moved => ?_
  refine (brings_variableList proper _ formed separate moved).bind fun ends => ?_
  refine .optional (Releases tight ending) (fun _ => ended) (fun _ _ => id) ?_
  refine .optional (Releases tight ending) (fun _ => back) (fun _ _ => id) ?_
  refine .read fun page => .ite (fun _ => broken.bind fun _ => ?_) fun _ => .pure fun _ => id
  exact (brings_setLineEnded true).behind fun _ _ => .inl

theorem clears_enumeration {afterKeyword : Trivia} {name : Expr} {afterOpen : Trivia} {members : Series Expr}
    (keywordFormed : SlotFormed drawn afterKeyword) (nameFormed : name.Formed drawn)
    (openFormed : SlotFormed drawn afterOpen) (membersFormed : Expr.ItemsFormed drawn members.items)
    (nameSeparate : name.separate = true) (noThen : afterOpen.any Token.isThen = false)
    (membersSeparate : Expr.itemsSeparate members.items = true) (written : Bool) (allowed : fits "enum") :
    Brings (Stands fits last) (do
      enumerationMembers afterKeyword name afterOpen members
      closeEnumeration written) fun _ => Clear none := by
  let brace : Option Token := some (.ofKind (.symbol .leftBrace))
  have kept : slotEnding afterOpen brace = brace := by
    rw [slotEnding, noThen]
    rfl
  have dropped : Brings (Clear brace) dropSpace fun _ => Clear brace :=
    fun _ clear => clear.dropSpace.of_inert (by decide)
  have braced : Brings (Stands (fun _ => False) (Expr.itemsEnding members.endDelimited members.items))
      (modify fun page => (page.setIndentation .left).dropLine.write "\x7d") fun _ => Clear none := by
    intro page stands
    have parted : page.dropLine.Stands (fun _ => False) none :=
      ⟨stands.parted.of_suffix (Buffer.dropLine_suffix page.buffer), fun _ => False.elim,
        fun _ member => by cases member⟩
    have left : (page.setIndentation .left).dropLine.Stands (fun _ => False) none := parted.fields rfl
    exact (brings_inert .rightBrace (by decide) false _ left).forget
  have opened : Brings (Stands fits last) (enumerationMembers afterKeyword name afterOpen members)
      fun _ => Stands (fun _ => False) (Expr.itemsEnding members.endDelimited members.items) := by
    unfold enumerationMembers
    refine (brings_word .enumWord allowed).bind fun _ => (clears_slot proper keywordFormed _).bind fun _ => ?_
    refine (clears_expr proper nameFormed nameSeparate).bind fun _ => ?_
    refine (brings_inert .leftBrace (by decide) true).bind fun _ => ?_
    refine (brings_trivia proper openFormed _).bind fun moved => brings_newLine moved .right ?_
    refine Brings.bind (dropped.before fun _ clear => kept ▸ clear) fun _ => ?_
    exact apartItems proper _ membersFormed membersSeparate fun _ _ _ _ => trivial
  refine opened.bind fun _ => braced.bind fun _ => clears_semicolonIf written

theorem clears_remark (form : RemarkForm) {token : Token} (formed : WordFormed drawn token)
    (remark : isRemarkText token.lexeme = true) (allowed : Account.remarks = true → fits token.lexeme) :
    Brings (Stands fits last) (Print.remark form token) fun _ => Clear none := by
  have shown := (proper token formed.1 formed.2).shown
  have written : ∀ {fits last}, (Account.remarks = true → fits token.lexeme) →
      ∀ (spaceAfter : Bool) (other : Option Token),
        Brings (Stands fits last) (writeToken token spaceAfter) fun _ => Clear other :=
    fun allowed spaceAfter other page stands => stands.remark shown remark allowed spaceAfter other
  unfold Print.remark
  refine .ite (fun _ => .read fun page => .ite (fun _ => ?_) fun _ => written allowed true none) fun _ => ?_
  · refine brings_dropBlanks.bind fun _ => brings_ensureSpace.bind fun _ => ?_
    exact (written (fun _ => trivial) false none).bind fun _ => brings_newline .stay
  · refine (written allowed false (some (.ofKind (.symbol .rightBrace)))).bind fun _ page clear => ?_
    exact (clear.dropSpace.of_inert (by decide)).forget

theorem clears_openBlock {afterOpen : Trivia} (formed : SlotFormed drawn afterOpen) (body : List Stmt) :
    Brings (Stands fits last) (openBlock afterOpen body)
      fun opened page => page.Clear none ∧ (2 ≤ body.length → opened.2 = true) := by
  have taken : Brings (Stands (fun _ => False) last) (modifyGet takeBlockRequest)
      fun _ => Stands (fun _ => False) last := by
    refine brings_fields fun page => ?_
    show page.takeBlockRequest.2.buffer = page.buffer
    unfold takeBlockRequest
    split <;> rfl
  unfold openBlock
  refine .read fun page => .optional (Stands (fun _ => False) last) (fun _ => ?_) (fun _ _ => Stands.nowhere) ?_
  · exact brings_ensureSpace.behind fun _ _ clear => clear.everywhere
  · refine taken.bind fun request => (brings_inert .leftBrace (by decide) false).bind fun _ => ?_
    refine (clears_trivia proper formed _).bind fun moved => ?_
    refine .optional (Clear none) (fun _ => brings_newline .right) (fun _ _ => id) ?_
    refine .optional (Clear none) (fun _ => brings_ensureSpace) (fun _ _ => id) ?_
    refine .optional (Clear none) (fun _ => brings_exempt) (fun _ _ => id) ?_
    refine .pure fun page clear => ⟨clear, fun several => ?_⟩
    match body, several with
    | _ :: _ :: _, _ => exact Bool.or_true moved

omit proper in
theorem clears_closeBlock (request : BlockRequest) (onLines written : Bool) :
    Brings (Stands fits last) (closeBlock request onLines written) fun _ => Clear none := by
  have braced : Brings (Stands (fun _ => False) last) (do
      write "\x7d"
      semicolonIf written
      if !request.noNewlineAfter then
        modify fun page => page.ensureNewline .stay
      setLineEnded true) fun _ => Clear none := by
    refine ((brings_inert .rightBrace (by decide) false).behind fun _ _ clear => clear.forget).bind
      fun _ => ?_
    refine (clears_semicolonIf written).bind fun _ => ?_
    refine .optional (Clear none) (fun _ page clear => ?_) (fun _ _ => id) (brings_setLineEnded true)
    exact clear.ensureNewline .stay
  unfold closeBlock
  refine .ite (fun _ => ?_) fun _ => ?_
  · refine brings_dropBlanks.bind fun _ => Brings.bind ?_ fun _ => braced
    exact (brings_newline .left).behind fun _ _ clear => clear.everywhere
  · refine brings_dropSpace.bind fun _ => .read fun page => ?_
    refine .optional (Stands (fun _ => False) last) (fun _ => ?_) (fun _ _ => Stands.nowhere) braced
    exact brings_ensureSpace.behind fun _ _ clear => clear.everywhere

omit proper in
theorem stands_closeBlockStatement {tight : Bool} {ending : Option Token} (onLines written : Bool) :
    Brings (Releases tight ending) (closeBlockStatement onLines written)
      fun _ => Stands (fun _ => False) none := by
  have broken : Brings (Releases tight ending) (newline .stay) fun _ => Stands (fun _ => False) none :=
    fun _ releases => (releases.stands.newline .stay).nowhere
  unfold closeBlockStatement
  refine .read fun page => .ite (fun _ => ?_) fun _ => .pure fun _ => Releases.stands
  exact broken.bind fun _ => brings_setLineEnded true

omit proper in
theorem brings_closeBlockStatement {tight : Bool} {ending : Option Token} (written : Bool) :
    Brings (Releases tight ending) (closeBlockStatement true written)
      fun _ => Releases (!written && tight) ending := by
  unfold closeBlockStatement
  refine .get fun page => ?_
  cases written with
  | false => exact .pure fun _ holds => holds.1 ▸ holds.2
  | true =>
    refine .ite (fun _ here holds => ?_) fun onBlankLine => .pure fun here holds => ?_
    · obtain ⟨rfl, releases⟩ := holds
      exact .inl (brings_setLineEnded true _ (releases.stands.newline .stay))
    · obtain ⟨rfl, releases⟩ := holds
      exact .inl (releases.stands.of_onBlankLine (by simpa using onBlankLine))

theorem brings_openConditional {afterKeyword : Trivia} {condition : Expr} {next : Option String}
    (keywordFormed : SlotFormed drawn afterKeyword) (conditionFormed : condition.Formed drawn)
    (separate : condition.separate = true) (admits : condition.admits next = true) (hasBlock : Bool)
    (allowed : fits "if") :
    Brings (Stands fits last) (openConditional afterKeyword condition hasBlock) fun _ => Awaits next := by
  unfold openConditional
  refine (brings_word .ifWord allowed).bind fun _ => (clears_slot proper keywordFormed _).bind fun _ => ?_
  refine .optional (Clear none) (fun _ => brings_fields fun _ => rfl) (fun _ _ => id) (.read fun before => ?_)
  refine .optional (Clear none) (fun _ => brings_fields fun _ => rfl) (fun _ _ => id) ?_
  exact (brings_test proper conditionFormed separate admits).bind fun _ => .read fun page => .pure fun _ => id

theorem clears_betweenBranches {between : Trivia} (formed : SlotFormed drawn between) (indented : Bool) :
    Brings (Stands fits last) (betweenBranches between indented) fun _ => Clear none :=
  (clears_lines proper formed _ _).behind fun _ _ clear => clear.forget

theorem clears_openElse {between afterElse : Trivia} (betweenFormed : SlotFormed drawn between)
    (elseFormed : SlotFormed drawn afterElse) (indented continues : Bool) :
    Brings (Stands fits last) (openElse between indented afterElse continues) fun _ => Clear none := by
  unfold openElse
  refine (clears_betweenBranches proper betweenFormed indented).bind fun _ => ?_
  refine .optional (Stands (fun _ => False) none) (fun _ => ?_) (fun _ _ => Stands.nowhere) ?_
  · exact brings_dropBlanks.behind fun _ _ stands => stands.nowhere
  · refine brings_ensureSpace.bind fun _ => (brings_word .elseWord trivial).bind fun _ => ?_
    refine .ite (fun _ => ?_) fun _ => clears_trivia proper elseFormed _
    exact (clears_slot proper elseFormed _).bind fun _ => .pure fun _ => id

omit proper in
theorem brings_closeElse (continues moved : Bool) :
    Brings (Stands fits last) (closeElse continues moved) fun _ => Stands fits last := by
  unfold closeElse
  refine .optional (Stands fits last) (fun _ => brings_fields fun _ => rfl) (fun _ _ => id) ?_
  exact .ite (fun _ => brings_setLineEnded true) fun _ => .pure fun _ => id

omit proper in
theorem clears_elseEnd {statement : Stmt} (continues moved : Bool) {written : Bool}
    (ends : (written || statement.admitsAll) = true) :
    Brings (Releases statement.tight statement.ending) (do closeElse continues moved; semicolonIf written)
      fun _ => Clear none := by
  cases written with
  | true =>
    refine ((brings_closeElse continues moved).before fun _ => Releases.stands).bind fun _ => ?_
    exact brings_semicolon
  | false =>
    refine ((brings_closeElse continues moved).before fun _ releases => ?_).bind fun _ =>
      clears_semicolonIf false
    exact releases.clear ends

theorem brings_openLoop {keyword : Token} {afterKeyword : Trivia} {condition : Expr} {next : Option String}
    (keywordFormed : WordFormed drawn keyword) (afterFormed : SlotFormed drawn afterKeyword)
    (conditionFormed : condition.Formed drawn) (separate : condition.separate = true)
    (admits : condition.admits next = true) (allowed : fits keyword.lexeme) :
    Brings (Stands fits last) (openLoop keyword afterKeyword condition) fun _ => Awaits next := by
  unfold openLoop
  refine (clears_word proper keywordFormed allowed).bind fun _ => ?_
  refine (clears_slot proper afterFormed _).bind fun _ => ?_
  exact brings_test proper conditionFormed separate admits

theorem clears_openDo {afterKeyword : Trivia} (formed : SlotFormed drawn afterKeyword) (allowed : fits "do") :
    Brings (Stands fits last) (openDo afterKeyword) fun _ => Clear none := by
  unfold openDo
  refine (brings_word .doWord allowed).bind fun _ => (clears_slot proper formed _).bind fun _ => ?_
  exact brings_fields fun _ => rfl

theorem clears_closeDo {between : Trivia} {condition : Expr} (betweenFormed : SlotFormed drawn between)
    (conditionFormed : condition.Formed drawn) (separate : condition.separate = true) (written : Bool) :
    Brings (Stands fits last) (closeDo between condition written) fun _ => Clear none := by
  have rest : ∀ {last}, Brings (Clear last) (do
      write "until" true
      expr condition
      dropSpace
      let _ ← semicolonAndNewline written .stay) fun _ => Clear none := by
    intro last
    refine (brings_word .untilWord trivial).bind fun _ => ?_
    refine (clears_expr proper conditionFormed separate).bind fun _ => brings_dropSpace.bind fun _ => ?_
    exact (brings_semicolonAndNewline written .stay).bind fun _ => .pure fun _ => id
  unfold closeDo
  refine (brings_slot proper betweenFormed _).bind fun _ => brings_dropBlanks.bind fun _ => ?_
  refine .read fun page => .ite (fun _ => ?_) fun _ => ?_
  · exact brings_ensureSpace.bind fun _ => rest
  · exact (brings_newline .stay).bind fun _ => rest

theorem clears_openFor {afterKeyword afterOpen : Trivia} (keywordFormed : SlotFormed drawn afterKeyword)
    (openFormed : SlotFormed drawn afterOpen) (allowed : fits "for") :
    Brings (Stands fits last) (openFor afterKeyword afterOpen) fun _ => Clear none := by
  unfold openFor
  refine (brings_word .forWord allowed).bind fun _ => (clears_slot proper keywordFormed _).bind fun _ => ?_
  refine (brings_inert .leftParen (by decide) false).bind fun _ => (brings_fields fun _ => rfl).bind fun _ => ?_
  exact clears_trivia proper openFormed _

theorem clears_forHeader {afterStart : Trivia} {condition : Option Expr} {afterCondition : Trivia}
    {increment : Option Expr} {afterIncrement afterClose : Trivia}
    (startFormed : SlotFormed drawn afterStart) (conditionFormed : OptionFormed drawn condition)
    (afterConditionFormed : SlotFormed drawn afterCondition)
    (incrementFormed : OptionFormed drawn increment) (afterIncrementFormed : SlotFormed drawn afterIncrement)
    (closeFormed : SlotFormed drawn afterClose) (conditionSeparate : Expr.optionSeparate condition = true)
    (incrementSeparate : Expr.optionSeparate increment = true) (moved : Bool) :
    Brings (Clear last) (forHeader afterStart condition afterCondition increment afterIncrement moved afterClose)
      fun _ => Clear none := by
  have back : Brings (Stands (fun _ => False) none) (do
      let broken ← trivia afterIncrement {}
      if !broken then
        dropSpace
      if moved then
        newline .left
      write ")" true
      modify Page.leaveFor
      Print.slot afterClose {}) fun _ => Clear none := by
    refine (brings_trivia proper afterIncrementFormed _).bind fun broken => ?_
    refine .optional (Stands (fun _ => False) _) (fun _ => ?_) (fun _ _ => Stands.nowhere) ?_
    · exact brings_dropSpace.behind fun _ _ stands => stands.nowhere
    refine .optional (Stands (fun _ => False) _) (fun _ => ?_) (fun _ _ => id) ?_
    · exact (brings_newline .left).behind fun _ _ clear => clear.everywhere
    refine (brings_inert .rightParen (by decide) true).bind fun _ => ?_
    refine (brings_fields fun _ => rfl).bind fun _ => ?_
    exact clears_slot proper closeFormed _
  have front : ∀ {fits step}, Brings (Clear none) step (fun _ => Stands (fun _ => False) none) →
      Brings (Stands fits none) (do
        dropSpace
        write ";" true
        Print.slot afterCondition {}
        step
        let broken ← trivia afterIncrement {}
        if !broken then
          dropSpace
        if moved then
          newline .left
        write ")" true
        modify Page.leaveFor
        Print.slot afterClose {}) fun _ => Clear none := by
    intro fits step stepped
    refine brings_dropSpace.bind fun _ => (brings_inert .semicolon (by decide) true).bind fun _ => ?_
    exact (clears_slot proper afterConditionFormed _).bind fun _ => stepped.bind fun _ => back
  have dropped : Brings (Clear none) dropSpace fun _ => Stands (fun _ => False) none :=
    brings_dropSpace.behind fun _ _ stands => stands.nowhere
  unfold forHeader
  refine (clears_slot proper startFormed _).bind fun _ => ?_
  cases increment with
  | none =>
    cases condition with
    | none => exact front dropped
    | some condition =>
      exact (clears_expr proper conditionFormed conditionSeparate).bind fun _ => front dropped
  | some increment =>
    have stepped := @clears_expr _ none _ proper _ incrementFormed incrementSeparate
    cases condition with
    | none => exact front stepped
    | some condition =>
      exact (clears_expr proper conditionFormed conditionSeparate).bind fun _ => front stepped

theorem clears_openSwitch {afterKeyword : Trivia} {subject : Expr} {afterOpen : Trivia}
    (keywordFormed : SlotFormed drawn afterKeyword) (subjectFormed : subject.Formed drawn)
    (openFormed : SlotFormed drawn afterOpen) (separate : subject.separate = true) (allowed : fits "switch") :
    Brings (Stands fits last) (openSwitch afterKeyword subject afterOpen) fun _ => Clear none := by
  unfold openSwitch
  refine (brings_word .switchWord allowed).bind fun _ => (clears_slot proper keywordFormed _).bind fun _ => ?_
  refine (clears_expr proper subjectFormed separate).bind fun _ => brings_ensureSpace.bind fun _ => ?_
  refine (brings_inert .leftBrace (by decide) true).bind fun _ => ?_
  exact (clears_lines proper openFormed _ _).behind fun _ _ clear => clear.forget

theorem clears_openBranch {label : Option Expr} {afterKeyword afterColon : Trivia}
    (labelFormed : OptionFormed drawn label) (keywordFormed : SlotFormed drawn afterKeyword)
    (colonFormed : SlotFormed drawn afterColon) (separate : Expr.optionSeparate label = true) :
    Brings (Clear none) (openBranch label afterKeyword afterColon) fun _ => Clear none := by
  have rest : ∀ {fits last}, Brings (Stands fits last) (do
      dropSpace
      write ":" true
      let saved := (← get).indentation
      let moved ← trivia afterColon { move := .right }
      if !moved then
        newline .right
      return saved) fun _ => Clear none := by
    intro fits last
    refine brings_dropSpace.bind fun _ => (brings_inert .colon (by decide) true).bind fun _ => ?_
    refine .read fun page => ?_
    refine (brings_trivia proper colonFormed _).bind fun moved => brings_newLine moved .right ?_
    exact .pure fun _ clear => clear.forget
  unfold openBranch
  cases label with
  | none => exact (brings_word .defaultWord trivial).bind fun _ => rest
  | some label =>
    refine (brings_word .caseWord trivial).bind fun _ => (clears_slot proper keywordFormed _).bind fun _ => ?_
    exact (clears_expr proper labelFormed separate).bind fun _ => rest

omit proper in
theorem clears_closeSwitch (written : Bool) :
    Brings (Stands fits last) (closeSwitch written) fun _ => Clear none := by
  unfold closeSwitch
  refine brings_dropBlanks.bind fun _ => (brings_newline .left).bind fun _ => ?_
  refine ((brings_inert .rightBrace (by decide) false).behind fun _ _ clear => clear.forget).bind
    fun _ => clears_semicolonIf written

theorem clears_jump (word : Keyword) {value : Option Expr} (formed : OptionFormed drawn value)
    (separate : Expr.optionSeparate value = true) (written : Bool) (allowed : fits word.text) :
    Brings (Stands fits last) (jump word.text value written) fun _ => Clear none := by
  have ends : ∀ {fits last}, Brings (Stands fits last)
      (do let _ ← semicolonAndNewline written .stay : Print Unit) fun _ => Clear none :=
    (brings_semicolonAndNewline written .stay).bind fun _ => .pure fun _ => id
  have spaced : ∀ {fits last}, Brings (Stands fits last) (write " ") fun _ => Clear last :=
    fun page stands => stands.clear (.blank rfl stands.parted) (List.append_nil _) rfl
  unfold jump
  have opened := @brings_token _ _ last _ (Token.shown_word word) (Token.sound_word word) (.inl allowed) false
  refine Brings.bind opened fun _ => ?_
  cases value with
  | none => exact ends
  | some value => exact spaced.bind fun _ => (clears_expr proper formed separate).bind fun _ => ends

theorem clears_openDefine {afterKeyword : Trivia} {name : Expr} (keywordFormed : SlotFormed drawn afterKeyword)
    (nameFormed : name.Formed drawn) (separate : name.separate = true) (allowed : fits "#define") :
    Brings (Stands fits last) (openDefine afterKeyword name) fun _ => Clear none := by
  have opened : Brings (Stands fits last) (write "#define" true) fun _ => Clear (some (.ofKind .define)) :=
    brings_spaced rfl Token.sound_define (.inl allowed)
  unfold openDefine
  refine opened.bind fun _ => (clears_slot proper keywordFormed _).bind fun _ => ?_
  refine (clears_expr proper nameFormed separate).bind fun _ => brings_dropSpace.bind fun _ => ?_
  exact brings_newline .stay

/-- An expression that stands for a statement. A line break is passed over where the line has been ended. -/
theorem brings_expressionStmt {value : Expr} (formed : value.Formed drawn) (separate : value.separate = true)
    (written : Bool) : Brings (Awaits value.leading) (do expr value; semicolonIf written)
      fun _ => Releases (Stmt.expression value written).tight value.ending := by
  by_cases isBreak : value = .newline
  · subst isBreak
    have broken : Brings (Awaits none) (Print.expr .newline) fun _ => Clear none := by
      have exempted : Brings (Awaits none) (modify exempt) fun _ => Awaits none := by
        rintro page (clear | ⟨goesOn, stands⟩)
        · exact .inl (clear.fields rfl)
        · exact .inr ⟨goesOn, stands.fields rfl⟩
      rw [Print.expr]
      refine exempted.bind fun _ => .get fun page => ?_
      refine .optional (Clear none) (fun _ => ?_) (fun ended here holds => ?_) brings_closeExpression_nil
      · exact (brings_newline .stay).before fun _ holds => (holds.1 ▸ holds.2).stands
      · obtain ⟨rfl, clear | ⟨goesOn, _⟩⟩ := holds
        · exact clear
        · exact absurd goesOn (by simpa using ended)
    exact broken.bind fun _ => (clears_semicolonIf written).behind fun _ _ => .inl
  · have tight : (Stmt.expression value written).tight = (!written && value.tight) := by
      cases value <;> first | rfl | exact absurd rfl isBreak
    have laid : Brings (Awaits value.leading) (Print.expr value) fun _ => Releases value.tight value.ending := by
      intro page awaits
      have stands := apart proper _ formed separate (fun _ => id) page awaits.stands
      cases isTight : value.tight with
      | false => exact .inl (stands.forget.weaken fun _ _ => isTight)
      | true => exact .inr ⟨rfl, lineEnded_expr value page, stands.nowhere⟩
    rw [tight]
    exact laid.bind fun _ => brings_semicolonIf written

end

/-- From tidy pages of which `pre` holds to pages of which `post` holds. -/
def Lays {α : Type} (pre : Page → Prop) (action : Print α) (post : α → Page → Prop) : Prop :=
  Brings (fun page => page.Tidy ∧ pre page) action post

namespace Lays

variable {α β : Type} {pre : Page → Prop} {action : Print α} {between : α → Page → Prop}
  {next : α → Print β} {post : β → Page → Prop}

theorem ending (first : Lays pre action between) (second : ∀ value, Brings (between value) (next value) post) :
    Lays pre (action >>= next) post :=
  Brings.bind first second

theorem bind {state : Page → Prop} {reached : α → Page → Prop} (loose : Loose state action reached)
    (first : Lays pre action between)
    (second : ∀ value, Lays (fun page => reached value page ∧ between value page) (next value) post) :
    Lays (fun page => state page ∧ pre page) (action >>= next) post := by
  rintro page ⟨tidy, here, holds⟩
  obtain ⟨laid, ends, _⟩ := loose page tidy here
  exact second _ _ ⟨laid, ends, first page ⟨tidy, holds⟩⟩

theorem opening {reached : α → Page → Prop} (opens : Steady (fun _ => True) action reached)
    (first : Lays pre action between)
    (second : ∀ value, Lays (fun page => reached value page ∧ between value page) (next value) post) :
    Lays pre (action >>= next) post :=
  (bind opens.loose first second).before fun _ holds => ⟨holds.1, trivial, holds.2⟩

theorem of {post : α → Page → Prop} (brings : Brings pre action post) : Lays pre action post :=
  brings.before fun _ => And.right

theorem further {state : Page → Prop} {post : α → Page → Prop} (lays : Lays pre action post)
    (enough : ∀ page, state page → pre page) {more : Page → Prop} :
    Lays (fun page => more page ∧ state page) action post :=
  lays.before fun _ holds => ⟨holds.1, enough _ holds.2.2⟩

variable [Account]

theorem ended {tight : Bool} {ending : Option Token} {written : Print Unit}
    (lays : Lays pre written fun _ => Releases tight ending) (closed : Bool) :
    Lays pre (Print.ended closed written) fun _ => Releases tight ending :=
  lays.ending fun _ => brings_terminate closed

theorem cleared {written : Print Unit} (lays : Lays pre written fun _ => Clear none) (closed : Bool)
    {tight : Bool} {ending : Option Token} :
    Lays pre (Print.ended closed written) fun _ => Releases tight ending :=
  ended (lays.behind fun _ _ => .inl) closed

end Lays

theorem shown_of_proper {drawn : Token → Prop}
    (proper : ∀ token, drawn token → token.kind ≠ .newline → token.Proper) (token : Token)
    (isDrawn : drawn token) (visible : token.kind ≠ .newline) : token.Shown :=
  (proper token isDrawn visible).shown

variable [Account]

theorem Lays.awaited {α : Type} {next : Option String} {action : Print α} {post : α → Page → Prop}
    (brings : Brings (Stands (· ∈ next) none) action post) : Lays (Awaits next) action post :=
  brings.before fun _ holds => holds.2.stands

/-- The end of a branch drops what stands on the last line, and there is a line break in front of it. -/
theorem clear_closeBranch {page : Page} {fits : String → Prop} {last : Option Token} (tidy : page.Tidy)
    (settled : page.Settled) (stands : page.Stands fits last) (saved : Int) :
    (after (closeBranch saved) page).Clear none := by
  have below := breaks_dropLine tidy settled.newline_mem
  have blank := Buffer.head?_isBlank_of_breaks below
  have dropped : page.dropLine.Clear none := by
    refine ⟨stands.parted.of_suffix (Buffer.dropLine_suffix page.buffer), fun next _ content isLast => ?_,
      fun _ member => nomatch member⟩
    rw [isLast] at blank
    cases blank
  exact @Stands.writeMargin _ _ { page.dropLine with indentation := saved } (dropped.fields rfl)

def AwaitsFirst : List Stmt → Page → Prop
  | [] => Clear none
  | first :: _ => Awaits first.leading

theorem awaitsFirst_of_clear (statements : List Stmt) {page : Page} (clear : page.Clear none) :
    AwaitsFirst statements page := by
  cases statements with
  | nil => exact clear
  | cons first others => exact .inl clear

variable {drawn : Token → Prop}

theorem lays_forBody (proper : ∀ token, drawn token → token.kind ≠ .newline → token.Proper)
    {afterStart : Trivia} {condition : Option Expr} {afterCondition : Trivia} {increment : Option Expr}
    {afterIncrement afterClose : Trivia} (startFormed : SlotFormed drawn afterStart)
    (conditionFormed : OptionFormed drawn condition) (afterConditionFormed : SlotFormed drawn afterCondition)
    (incrementFormed : OptionFormed drawn increment) (afterIncrementFormed : SlotFormed drawn afterIncrement)
    (closeFormed : SlotFormed drawn afterClose) (conditionSeparate : Expr.optionSeparate condition = true)
    (incrementSeparate : Expr.optionSeparate increment = true) (moved : Bool) {body : Stmt} {written : Bool}
    {last : Option Token}
    (laid : Lays (Awaits body.leading) (stmt body) fun _ => Releases body.tight body.ending) :
    Lays (fun page => page.Begun ∧ page.Clear last) (do
      forHeader afterStart condition afterCondition increment afterIncrement moved afterClose
      stmt body
      semicolonIf written) fun _ => Releases (!written && body.tight) body.ending := by
  have header := @clears_forHeader _ last _ proper _ _ _ _ _ _ startFormed conditionFormed
    afterConditionFormed incrementFormed afterIncrementFormed closeFormed conditionSeparate
    incrementSeparate moved
  refine .bind (inner_forHeader (shown_of_proper proper) startFormed conditionFormed afterConditionFormed
    incrementFormed afterIncrementFormed closeFormed moved).loose (.of header) fun _ => ?_
  exact (laid.ending fun _ => brings_semicolonIf written).further fun _ => .inl

section

variable (drawn)

/-- A statement is laid out where its first text fits. It leaves room for everything, unless it may end
without a space. -/
def LaidOut (statement : Stmt) : Prop :=
  statement.Formed drawn → statement.separate = true →
    Lays (Awaits statement.leading) (stmt statement) fun _ => Releases statement.tight statement.ending

def LaidOutAll (statements : List Stmt) : Prop :=
  Stmt.ListFormed drawn statements → Stmt.listSeparate false statements = true →
    Lays (AwaitsFirst statements) (stmts statements)
      fun _ => Releases (Stmt.listTight statements) (Stmt.listEnding statements)

def LaidOutBlock (statements : List Stmt) : Prop :=
  ∀ {onLines : Bool}, Stmt.ListFormed drawn statements → Stmt.listSeparate true statements = true →
    (2 ≤ statements.length → onLines = true) →
    Lays (fun page => page.Begun ∧ AwaitsFirst statements page) (blockStmts onLines statements)
      fun _ => Stands (fun _ => False) none

def LaidOutCases (cases : List (Case Stmt)) : Prop :=
  Stmt.CasesFormed drawn cases → Stmt.casesSeparate cases = true →
    Lays (fun page => (page.Begun ∧ page.Broken) ∧ page.Clear none) (branches cases) fun _ => Clear none

end

attribute [simp] stmt stmts blockStmts branches

attribute [simp] Stmt.separate Stmt.listSeparate Stmt.casesSeparate

attribute [simp] Stmt.tight Stmt.listTight Stmt.ending Stmt.listEnding

namespace LaidOut

variable (proper : ∀ token, drawn token → token.kind ≠ .newline → token.Proper)

include proper

theorem declaration {keyword : Token} {afterKeyword : Trivia} {declared : Series Variable} {written : Bool} :
    LaidOut drawn (.declaration keyword afterKeyword declared written) := by
  intro formed separate
  obtain ⟨keywordFormed, afterFormed, declaredFormed⟩ := formed
  simp only [Stmt.separate] at separate
  simp only [Stmt.tight, Stmt.ending]
  rw [stmt]
  refine Lays.ended (.awaited ?_) _
  exact brings_declaration proper keywordFormed afterFormed declaredFormed separate written rfl

theorem enumeration {afterKeyword afterOpen : Trivia} {name : Expr} {members : Series Expr} {written : Bool} :
    LaidOut drawn (.enumeration afterKeyword name afterOpen members written) := by
  intro formed separate
  obtain ⟨keywordFormed, nameFormed, openFormed, membersFormed⟩ := formed
  simp only [Stmt.separate, Bool.and_eq_true, Bool.not_eq_true'] at separate
  obtain ⟨⟨nameSeparate, noThen⟩, membersSeparate⟩ := separate
  rw [stmt]
  refine Lays.cleared (.awaited ?_) _
  exact clears_enumeration proper keywordFormed nameFormed openFormed membersFormed nameSeparate noThen
    membersSeparate written rfl

theorem expression {value : Expr} {written : Bool} : LaidOut drawn (.expression value written) := by
  intro formed separate
  simp only [Stmt.separate] at separate
  rw [stmt]
  refine Lays.ended ?_ _
  exact (brings_expressionStmt proper formed separate written).before fun _ => And.right

theorem block {afterOpen : Trivia} {body : List Stmt} {written : Bool} (bodyLaid : LaidOutBlock drawn body) :
    LaidOut drawn (.block afterOpen body written) := by
  intro formed separate
  simp only [Stmt.separate] at separate
  rw [stmt]
  refine Lays.cleared ?_ _
  refine .opening (opens_openBlock (shown_of_proper proper) formed.1 body)
    (.awaited (clears_openBlock proper formed.1 body)) fun ⟨request, onLines⟩ => ?_
  have filled : Lays (fun page => page.Begun ∧ page.Clear none ∧ (2 ≤ body.length → onLines = true))
      (blockStmts onLines body) fun _ => Stands (fun _ => False) none := by
    rintro page ⟨tidy, begun, clear, lined⟩
    exact bodyLaid formed.2 separate lined page ⟨tidy, begun, awaitsFirst_of_clear body clear⟩
  exact filled.ending fun _ => clears_closeBlock request onLines written

theorem conditionalAlone {afterKeyword between afterElse : Trivia} {test : Expr} {whenTrue : Stmt}
    {written : Bool} (trueLaid : LaidOut drawn whenTrue) :
    LaidOut drawn (.conditional afterKeyword test whenTrue between afterElse none written) := by
  intro formed separate
  obtain ⟨keywordFormed, testFormed, trueFormed, betweenFormed, _⟩ := formed
  simp only [Stmt.separate, Bool.and_eq_true] at separate
  obtain ⟨⟨testSeparate, admits⟩, trueSeparate⟩ := separate
  rw [stmt]
  refine Lays.cleared ?_ _
  refine .opening (opens_openConditional (shown_of_proper proper) keywordFormed testFormed _)
    (.awaited (brings_openConditional proper keywordFormed testFormed testSeparate admits _ rfl))
    fun indented => ?_
  refine ((trueLaid trueFormed trueSeparate).ending fun _ => ?_).further fun _ => id
  refine ((clears_betweenBranches proper betweenFormed indented).before fun _ => Releases.stands).bind
    fun _ => clears_semicolonIf written

theorem conditional {afterKeyword between afterElse : Trivia} {test : Expr} {whenTrue whenFalse : Stmt}
    {written : Bool} (trueLaid : LaidOut drawn whenTrue) (falseLaid : LaidOut drawn whenFalse) :
    LaidOut drawn (.conditional afterKeyword test whenTrue between afterElse (some whenFalse) written) := by
  intro formed separate
  obtain ⟨keywordFormed, testFormed, trueFormed, betweenFormed, elseFormed, falseFormed⟩ := formed
  simp only [Stmt.separate, Bool.and_eq_true, Bool.or_eq_true] at separate
  obtain ⟨⟨⟨⟨testSeparate, admits⟩, trueSeparate⟩, falseSeparate⟩, ends⟩ := separate
  rw [stmt]
  refine Lays.cleared ?_ _
  refine .opening (opens_openConditional (shown_of_proper proper) keywordFormed testFormed _)
    (.awaited (brings_openConditional proper keywordFormed testFormed testSeparate admits _ rfl))
    fun indented => ?_
  refine .bind (quiet_stmt (shown_of_proper proper) trueFormed).inner.loose
    (trueLaid trueFormed trueSeparate) fun _ => ?_
  refine .bind (inner_openElse (shown_of_proper proper) betweenFormed elseFormed indented _).loose
    (.of ((clears_openElse proper betweenFormed elseFormed indented _).before fun _ => Releases.stands))
    fun moved => ?_
  refine ((falseLaid falseFormed falseSeparate).ending fun _ => ?_).further fun _ => .inl
  exact clears_elseEnd _ moved (Bool.or_eq_true _ _ |>.mpr ends)

theorem loop {keyword : Token} {afterKeyword : Trivia} {test : Expr} {body : Stmt} {written : Bool}
    (bodyLaid : LaidOut drawn body) : LaidOut drawn (.loop keyword afterKeyword test body written) := by
  intro formed separate
  obtain ⟨keywordFormed, afterFormed, testFormed, bodyFormed⟩ := formed
  simp only [Stmt.separate, Bool.and_eq_true] at separate
  obtain ⟨⟨testSeparate, admits⟩, bodySeparate⟩ := separate
  simp only [Stmt.tight, Stmt.ending]
  rw [stmt]
  refine Lays.ended ?_ _
  refine .opening (opens_openLoop (shown_of_proper proper) keywordFormed afterFormed testFormed)
    (.awaited (brings_openLoop proper keywordFormed afterFormed testFormed testSeparate admits rfl))
    fun _ => ?_
  have body := (bodyLaid bodyFormed bodySeparate).ending fun _ => brings_semicolonIf written
  exact body.further fun _ => id

theorem doUntil {afterKeyword between : Trivia} {body : Stmt} {test : Expr} {written : Bool}
    (bodyLaid : LaidOut drawn body) : LaidOut drawn (.doUntil afterKeyword body between test written) := by
  intro formed separate
  obtain ⟨keywordFormed, bodyFormed, betweenFormed, testFormed⟩ := formed
  simp only [Stmt.separate, Bool.and_eq_true] at separate
  rw [stmt]
  refine Lays.cleared ?_ _
  refine .opening (opens_openDo (shown_of_proper proper) keywordFormed)
    (.awaited (clears_openDo proper keywordFormed rfl)) fun _ => ?_
  refine ((bodyLaid bodyFormed separate.1).ending fun _ => ?_).further fun _ => .inl
  exact (clears_closeDo proper betweenFormed testFormed separate.2 written).before fun _ => Releases.stands

theorem forLoopBare {afterKeyword afterOpen afterStart afterCondition afterIncrement afterClose : Trivia}
    {test increment : Option Expr} {body : Stmt} {written : Bool} (bodyLaid : LaidOut drawn body) :
    LaidOut drawn (.forLoop afterKeyword afterOpen none afterStart test afterCondition increment afterIncrement afterClose body written) := by
  intro formed separate
  obtain ⟨keywordFormed, openFormed, startFormed, testFormed, conditionFormed, incrementFormed,
    afterIncrementFormed, closeFormed, bodyFormed⟩ := formed
  simp only [Stmt.separate, Bool.and_eq_true] at separate
  obtain ⟨⟨testSeparate, incrementSeparate⟩, bodySeparate⟩ := separate
  simp only [Stmt.tight, Stmt.ending]
  rw [stmt]
  refine Lays.ended ?_ _
  refine .opening (opens_openFor (shown_of_proper proper) keywordFormed openFormed)
    (.awaited (clears_openFor proper keywordFormed openFormed rfl)) fun moved => ?_
  refine .bind (opens_write rfl true).inner.loose (.of (brings_inert .semicolon (by decide) true)) fun _ => ?_
  exact lays_forBody proper startFormed testFormed conditionFormed incrementFormed afterIncrementFormed
    closeFormed testSeparate incrementSeparate moved (bodyLaid bodyFormed bodySeparate)

theorem forLoop {afterKeyword afterOpen afterStart afterCondition afterIncrement afterClose : Trivia}
    {test increment : Option Expr} {start body : Stmt} {written : Bool} (startLaid : LaidOut drawn start)
    (bodyLaid : LaidOut drawn body) :
    LaidOut drawn (.forLoop afterKeyword afterOpen (some start) afterStart test afterCondition increment afterIncrement afterClose body written) := by
  intro formed separate
  obtain ⟨keywordFormed, openFormed, firstFormed, startFormed, testFormed, conditionFormed, incrementFormed,
    afterIncrementFormed, closeFormed, bodyFormed⟩ := formed
  simp only [Stmt.separate, Bool.and_eq_true] at separate
  obtain ⟨⟨⟨firstSeparate, testSeparate⟩, incrementSeparate⟩, bodySeparate⟩ := separate
  simp only [Stmt.tight, Stmt.ending]
  rw [stmt]
  refine Lays.ended ?_ _
  refine .opening (opens_openFor (shown_of_proper proper) keywordFormed openFormed)
    (.awaited (clears_openFor proper keywordFormed openFormed rfl)) fun moved => ?_
  refine .bind (quiet_stmt (shown_of_proper proper) firstFormed).inner.loose
    ((startLaid firstFormed firstSeparate).before fun _ holds => ⟨holds.1, .inl holds.2⟩)
    fun _ => ?_
  refine .bind inner_ensureSpace.loose (.of (brings_ensureSpace.before fun _ => Releases.stands))
    fun _ => ?_
  exact lays_forBody proper startFormed testFormed conditionFormed incrementFormed afterIncrementFormed
    closeFormed testSeparate incrementSeparate moved (bodyLaid bodyFormed bodySeparate)

theorem switch {afterKeyword afterOpen : Trivia} {subject : Expr} {cases : List (Case Stmt)} {written : Bool}
    (casesLaid : LaidOutCases drawn cases) :
    LaidOut drawn (.switch afterKeyword subject afterOpen cases written) := by
  intro formed separate
  obtain ⟨keywordFormed, subjectFormed, openFormed, casesFormed⟩ := formed
  simp only [Stmt.separate, Bool.and_eq_true] at separate
  rw [stmt]
  refine Lays.cleared ?_ _
  refine .opening (steady_openSwitch (shown_of_proper proper) keywordFormed subjectFormed openFormed)
    (.awaited (clears_openSwitch proper keywordFormed subjectFormed openFormed separate.1 rfl)) fun _ => ?_
  exact (casesLaid casesFormed separate.2).ending fun _ => clears_closeSwitch written

theorem returning {value : Option Expr} {written : Bool} : LaidOut drawn (.returning value written) := by
  intro formed separate
  rw [stmt]
  exact Lays.cleared (.awaited (clears_jump proper .returnWord formed separate written rfl)) _

theorem breaking {written : Bool} : LaidOut drawn (.breaking written) := by
  intro _ _
  rw [stmt]
  exact Lays.cleared (.awaited (@clears_jump _ _ _ _ proper .breakWord none trivial rfl written rfl)) _

theorem exiting {written : Bool} : LaidOut drawn (.exiting written) := by
  intro _ _
  rw [stmt]
  exact Lays.cleared (.awaited (@clears_jump _ _ _ _ proper .exitWord none trivial rfl written rfl)) _

theorem remark {form : RemarkForm} {token : Token} : LaidOut drawn (.remark form token) := by
  intro formed separate
  rw [stmt]
  refine Lays.cleared (.awaited (clears_remark proper form formed separate fun counts => ?_)) _
  rw [Stmt.leading, if_pos counts]
  rfl

theorem define {afterKeyword : Trivia} {name : Expr} {body : List Stmt} (bodyLaid : LaidOutAll drawn body) :
    LaidOut drawn (.define afterKeyword name body) := by
  intro formed separate
  obtain ⟨keywordFormed, nameFormed, bodyFormed⟩ := formed
  simp only [Stmt.separate, Bool.and_eq_true] at separate
  simp only [Stmt.tight, Stmt.ending]
  rw [stmt]
  refine Lays.ended ?_ _
  refine .opening (opens_openDefine (shown_of_proper proper) keywordFormed nameFormed)
    (.awaited (clears_openDefine proper keywordFormed nameFormed separate.1 rfl)) fun _ => ?_
  exact (bodyLaid bodyFormed separate.2).further fun _ => awaitsFirst_of_clear body

omit proper in
theorem nil : LaidOutAll drawn [] :=
  fun _ _ => Brings.pure fun _ holds => .inl holds.2

omit proper in
theorem singleton {only : Stmt} (here : LaidOut drawn only) : LaidOutAll drawn [only] := by
  intro formed separate
  simp only [Stmt.listSeparate] at separate
  rw [stmts, stmts]
  exact (here formed.1 separate).ending fun _ => .pure fun _ => id

theorem cons {first next : Stmt} {others : List Stmt} (here : LaidOut drawn first)
    (later : LaidOutAll drawn (next :: others)) : LaidOutAll drawn (first :: next :: others) := by
  intro formed separate
  simp only [Stmt.listSeparate, Bool.and_eq_true, Bool.false_and, Bool.false_or] at separate
  obtain ⟨⟨firstSeparate, admits⟩, laterSeparate⟩ := separate
  rw [stmts]
  refine .opening (quiet_stmt (shown_of_proper proper) formed.1) (here formed.1 firstSeparate) fun _ => ?_
  exact (later formed.2 laterSeparate).further fun _ releases => releases.awaits admits

omit proper in
theorem blockNil : LaidOutBlock drawn [] :=
  fun _ _ _ => Brings.pure fun _ holds => holds.2.2.nowhere

omit proper in
theorem blockSingleton {only : Stmt} (here : LaidOut drawn only) : LaidOutBlock drawn [only] := by
  intro onLines formed separate _
  simp only [Stmt.listSeparate] at separate
  rw [blockStmts, blockStmts]
  refine ((here formed.1 separate).ending fun _ => ?_).further fun _ => id
  refine (stands_closeBlockStatement onLines _).bind fun _ => .pure fun _ => id

theorem blockCons {first next : Stmt} {others : List Stmt} (here : LaidOut drawn first)
    (later : LaidOutBlock drawn (next :: others)) : LaidOutBlock drawn (first :: next :: others) := by
  intro onLines formed separate lined
  simp only [Stmt.listSeparate, Bool.and_eq_true, Bool.true_and] at separate
  obtain ⟨⟨firstSeparate, admits⟩, laterSeparate⟩ := separate
  obtain rfl : onLines = true := lined (Nat.le_add_left 2 others.length)
  rw [blockStmts]
  refine .bind (quiet_stmt (shown_of_proper proper) formed.1).inner.loose (here formed.1 firstSeparate)
    fun _ => ?_
  refine .bind (inner_closeBlockStatement true _).loose (.of (brings_closeBlockStatement _)) fun _ => ?_
  refine (later formed.2 laterSeparate fun _ => rfl).before fun _ holds => ⟨holds.1, holds.2.1, ?_⟩
  refine holds.2.2.awaits ?_
  rw [Stmt.admits] at admits
  rw [← admits]
  cases first.hasSemicolon <;> simp

omit proper in
theorem casesNil : LaidOutCases drawn [] :=
  fun _ _ => Brings.pure fun _ holds => holds.2.2

theorem casesCons {label : Option Expr} {afterKeyword afterColon : Trivia} {body : List Stmt}
    {others : List (Case Stmt)} (here : LaidOutAll drawn body) (later : LaidOutCases drawn others) :
    LaidOutCases drawn (⟨label, afterKeyword, afterColon, body⟩ :: others) := by
  intro formed separate
  obtain ⟨labelFormed, keywordFormed, colonFormed, bodyFormed, othersFormed⟩ := formed
  simp only [Stmt.casesSeparate, Bool.and_eq_true] at separate
  obtain ⟨⟨labelSeparate, bodySeparate⟩, laterSeparate⟩ := separate
  rw [branches]
  refine .bind (steady_openBranch (shown_of_proper proper) labelFormed keywordFormed colonFormed).loose
    (.of (clears_openBranch proper labelFormed keywordFormed colonFormed labelSeparate)) fun saved => ?_
  have filled : Lays (Clear none) (stmts body) fun _ => Stands (fun _ => False) none := by
    rintro page ⟨tidy, clear⟩
    exact (here bodyFormed bodySeparate page ⟨tidy, awaitsFirst_of_clear body clear⟩).stands
  refine .bind (quiet_stmts (shown_of_proper proper) bodyFormed).inner.settled.loose filled fun _ => ?_
  rintro page ⟨tidy, state, stands⟩
  obtain ⟨closed, below, _⟩ := loose_closeBranch saved page tidy state
  exact later othersFormed laterSeparate _ ⟨closed, below, clear_closeBranch tidy state.2 stands saved⟩

end LaidOut

mutual

theorem laidOut (proper : ∀ token, drawn token → token.kind ≠ .newline → token.Proper) :
    (statement : Stmt) → LaidOut drawn statement
  | .declaration .. => .declaration proper
  | .enumeration .. => .enumeration proper
  | .expression .. => .expression proper
  | .block _ body _ => .block proper (laidOutBlock proper body)
  | .conditional _ _ whenTrue _ _ none _ => .conditionalAlone proper (laidOut proper whenTrue)
  | .conditional _ _ whenTrue _ _ (some whenFalse) _ =>
    .conditional proper (laidOut proper whenTrue) (laidOut proper whenFalse)
  | .loop _ _ _ body _ => .loop proper (laidOut proper body)
  | .doUntil _ body _ _ _ => .doUntil proper (laidOut proper body)
  | .forLoop _ _ none _ _ _ _ _ _ body _ => .forLoopBare proper (laidOut proper body)
  | .forLoop _ _ (some start) _ _ _ _ _ _ body _ =>
    .forLoop proper (laidOut proper start) (laidOut proper body)
  | .switch _ _ _ cases _ => .switch proper (laidOutCases proper cases)
  | .returning .. => .returning proper
  | .breaking _ => .breaking proper
  | .exiting _ => .exiting proper
  | .remark .. => .remark proper
  | .define _ _ body => .define proper (laidOutAll proper body)

theorem laidOutAll (proper : ∀ token, drawn token → token.kind ≠ .newline → token.Proper) :
    (statements : List Stmt) → LaidOutAll drawn statements
  | [] => LaidOut.nil
  | [only] => LaidOut.singleton (laidOut proper only)
  | first :: next :: others =>
    LaidOut.cons proper (laidOut proper first) (laidOutAll proper (next :: others))

theorem laidOutBlock (proper : ∀ token, drawn token → token.kind ≠ .newline → token.Proper) :
    (statements : List Stmt) → LaidOutBlock drawn statements
  | [] => LaidOut.blockNil
  | [only] => LaidOut.blockSingleton (laidOut proper only)
  | first :: next :: others =>
    LaidOut.blockCons proper (laidOut proper first) (laidOutBlock proper (next :: others))

theorem laidOutCases (proper : ∀ token, drawn token → token.kind ≠ .newline → token.Proper) :
    (cases : List (Case Stmt)) → LaidOutCases drawn cases
  | [] => LaidOut.casesNil
  | ⟨_, _, _, body⟩ :: others =>
    LaidOut.casesCons proper (laidOutAll proper body) (laidOutCases proper others)

end

end GmlLayout.Print
