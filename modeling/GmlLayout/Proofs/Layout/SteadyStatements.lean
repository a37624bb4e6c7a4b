import GmlLayout.Proofs.Layout.Steady

/-!
Statements are steady. The end of a `switch` branch drops a line that may hold a text, so it is steady in
a looser sense only: the brace that closes the `switch` puts a text behind the last line break again.
-/

namespace GmlLayout.Print

open Page

theorem quiet_writeSemicolon : Quiet (modify writeSemicolon) :=
  quiet_modify fun _ tidy => moves_writeSemicolon tidy

theorem quiet_semicolonIf (written : Bool) : Quiet (semicolonIf written) :=
  .ite quiet_writeSemicolon (.pure fun _ => id)

theorem quiet_semicolonAndNewline (written : Bool) (move : Move) :
    Quiet (semicolonAndNewline written move) := by
  unfold semicolonAndNewline
  refine quiet_writeSemicolon.bind fun _ => .ite (.pure fun _ => id) ?_
  exact (quiet_newline move).bind fun _ => .pure fun _ => id

theorem inner_setLineEnded (ended : Bool) : Inner (setLineEnded ended) :=
  inner_modify fun _ tidy begun => .fields tidy rfl rfl (fun _ => .inr begun) fun _ => rfl

theorem quiet_takeExemption : Quiet takeExemption :=
  .modifyGet fun _ tidy _ => ⟨⟨⟨⟨tidy.tabs, tidy.neat, tidy.ended⟩, id, id⟩, fun _ => rfl⟩, trivial⟩

theorem quiet_newlines (count : Nat) : Quiet (modify fun page => page.newlines count) :=
  quiet_modify fun _ tidy => moves_newlines tidy count

theorem quiet_placeSemicolon : Quiet (modify placeSemicolon) :=
  quiet_modify fun _ tidy => moves_placeSemicolon tidy

theorem quiet_terminate (closed : Bool) : Quiet (terminate closed) := by
  have dropped : Quiet (modifyGet Page.dropBlanks) := by
    refine .modifyGet fun page tidy _ => ⟨⟨(moves_dropBlanks tidy).kept, fun settings => ?_⟩, trivial⟩
    exact Prod.ext (dropBlanks_under tidy settings) ((moves_dropBlanks tidy).under settings)
  have placed : ∀ count, Quiet (modify fun page => page.placeSemicolon.newlines count) := fun count =>
    quiet_modify fun _ tidy =>
      (moves_placeSemicolon tidy).trans (moves_newlines (moves_placeSemicolon tidy).kept.tidy count)
  unfold terminate
  refine quiet_takeExemption.bind fun exempt => .ite ?_ (.pure fun _ => id)
  refine dropped.bind fun breaks => .read (fun page tidy settings => ?_) fun page => ?_
  · rw [isEmpty_under tidy, code_head?_under]
  · refine .ite ?_ (.pure fun _ => id)
    split
    · exact quiet_newlines _
    · exact quiet_newlines _
    · exact placed _

theorem Steady.ended {action : Print Unit} {kind : Prop}
    (steady : Steady (fun _ => True) action fun _ page => kind → page.Begun) (closed : Bool) :
    Steady (fun _ => True) (do action; terminate closed) fun _ page => kind → page.Begun := by
  refine steady.bind fun _ page tidy begun => ?_
  obtain ⟨moves, _⟩ := quiet_terminate closed page tidy trivial
  exact ⟨moves, fun holds => moves.kept.begun (begun holds)⟩

section

variable {drawn : Token → Prop} (shown : ∀ token, drawn token → token.kind ≠ .newline → token.Shown)

include shown

theorem inner_repeatedKeyword {declared : Variable} (formed : declared.Formed drawn) (indented : Bool) :
    Inner (repeatedKeyword declared indented) := by
  obtain ⟨target, keyword, afterKeyword⟩ := declared
  unfold repeatedKeyword
  cases keyword with
  | none => exact .pure fun _ => id
  | some keyword =>
    refine (opens_word shown formed.2.1 true).inner.bind fun _ => ?_
    exact (inner_trivia shown formed.2.2 _).bind fun _ => .pure fun _ => id

theorem inner_variableTrivia {trailing : Trivia} (formed : SlotFormed drawn trailing) (indented : Bool) :
    Inner (variableTrivia trailing indented) := by
  unfold variableTrivia
  refine .ite (.pure fun _ => id) (quiet_openFrame.inner.bind fun _ => ?_)
  refine (inner_trivia shown formed _).bind fun moved => .ite (.pure fun _ => id) ?_
  exact quiet_closeFrame.inner.bind fun _ => .pure fun _ => id

theorem inner_variableList (endDelimited : Bool) {items : List (Item Variable)}
    (formed : Variable.ItemsFormed drawn items) (indented : Bool) :
    Inner (variableList endDelimited items indented) := by
  induction items generalizing indented with
  | nil => exact .pure fun _ => id
  | cons item others ih =>
    obtain ⟨declared, trailing⟩ := item
    obtain ⟨declaredFormed, trailingFormed⟩ := formed _ List.mem_cons_self
    have later := ih fun item member => formed item (List.mem_cons_of_mem _ member)
    have rest : ∀ openEnd indented, Inner (do
        let indented ← variableTrivia trailing indented
        if others.isEmpty then return (indented, openEnd) else variableList endDelimited others indented) := by
      intro openEnd indented
      refine (inner_variableTrivia shown trailingFormed indented).bind fun indented => ?_
      exact .ite (.pure fun _ => id) (later indented)
    unfold variableList
    refine (inner_repeatedKeyword shown declaredFormed indented).bind fun indented => ?_
    refine quiet_openFrame.inner.bind fun _ => (steady_expr shown declaredFormed.1).inner.bind fun _ => ?_
    refine quiet_dropSpace.inner.bind fun _ => quiet_closeFrame.inner.bind fun _ => ?_
    refine .read (fun _ _ _ => rfl) fun page => .ite ?_ ?_
    · exact (opens_write rfl true).inner.bind fun _ => rest _ _
    · exact .optional quiet_placeSemicolon.inner (rest _ _)

theorem opens_declaration {keyword : Token} {afterKeyword : Trivia} {declared : Series Variable}
    (keywordFormed : WordFormed drawn keyword) (afterFormed : SlotFormed drawn afterKeyword)
    (formed : Variable.ItemsFormed drawn declared.items) (written : Bool) :
    Opens (declaration keyword afterKeyword declared written) := by
  unfold declaration
  refine (opens_word shown keywordFormed true).bind fun _ => ?_
  refine (inner_trivia shown afterFormed _).bind fun moved => ?_
  refine (inner_variableList shown _ formed moved).bind fun ends => ?_
  refine .optional (quiet_semicolonIf written).inner (.optional inner_stepBack ?_)
  refine .read (fun page tidy settings => ?_) fun page => .ite ?_ (.pure fun _ => id)
  · rw [onBlankLine_under tidy]
    rfl
  · exact (quiet_newline .stay).inner.bind fun _ => inner_setLineEnded true

theorem opens_enumerationMembers {afterKeyword : Trivia} {name : Expr} {afterOpen : Trivia}
    {members : Series Expr} (keywordFormed : SlotFormed drawn afterKeyword)
    (nameFormed : name.Formed drawn) (openFormed : SlotFormed drawn afterOpen)
    (membersFormed : Expr.ItemsFormed drawn members.items) :
    Opens (enumerationMembers afterKeyword name afterOpen members) := by
  unfold enumerationMembers
  refine (opens_write rfl true).bind fun _ => (inner_slot shown keywordFormed _).bind fun _ => ?_
  refine (steady_expr shown nameFormed).inner.bind fun _ => (opens_write rfl true).inner.bind fun _ => ?_
  refine (inner_trivia shown openFormed _).bind fun moved => .optional (quiet_newline .right).inner ?_
  exact quiet_dropSpace.inner.bind fun _ => inner_entries shown membersFormed

omit shown in
theorem quiet_closeEnumeration (written : Bool) : Quiet (closeEnumeration written) := by
  have braced : Quiet (modify fun page => (page.setIndentation .left).dropLine.write "\x7d") :=
    quiet_modify fun _ tidy => moves_closeEnumeration tidy
  exact braced.bind fun _ => quiet_semicolonIf written

theorem opens_remark (form : RemarkForm) {token : Token} (formed : WordFormed drawn token) :
    Opens (remark form token) := by
  unfold remark
  refine .ite (.get (fun _ _ _ => rfl) fun page => ?_) ?_
  · by_cases ended : page.lineEnded = true
    · rw [if_pos ended]
      have begun : Inner (do dropBlanks; ensureSpace; writeToken token; newline .stay) := by
        refine quiet_dropBlanks.inner.bind fun _ => inner_ensureSpace.bind fun _ => ?_
        exact (opens_word shown formed false).inner.bind fun _ => (quiet_newline .stay).inner
      intro here tidy isPage
      exact begun here tidy (tidy.ended (isPage.1 ▸ ended))
    · rw [if_neg ended]
      exact (opens_word shown formed true).weaken (fun _ _ => trivial) fun _ _ => id
  · exact (opens_word shown formed false).bind fun _ => quiet_dropSpace.inner

theorem opens_openBlock {afterOpen : Trivia} (formed : SlotFormed drawn afterOpen) (body : List Stmt) :
    Opens (openBlock afterOpen body) := by
  have taken : Quiet (modifyGet takeBlockRequest) := by
    refine .modifyGet fun page tidy _ => ⟨?_, trivial⟩
    obtain ⟨settings, buffer, indentation, lineEnded, blockRequests, _, _, _, _, _, _⟩ := page
    cases blockRequests with
    | nil => exact ⟨tidy.kept, fun _ => rfl⟩
    | cons request requests => exact ⟨⟨⟨tidy.tabs, tidy.neat, tidy.ended⟩, id, id⟩, fun _ => rfl⟩
  unfold openBlock
  refine .get (fun page tidy settings => by rw [onBlankLine_under tidy]) fun page => ?_
  refine .optionally (fun shown => ?_) (fun _ _ => trivial) ?_
  · intro here tidy isPage
    have begun : here.Begun := by
      intro none
      have blank : here.onBlankLine = true := tidy.neat.onBlankLine_iff.mpr (.inl none)
      rw [isPage.1] at blank
      rw [blank] at shown
      cases shown
    exact ⟨(inner_ensureSpace here tidy begun).1, trivial⟩
  · refine taken.bind fun request => (opens_write rfl false).bind fun _ => ?_
    refine (inner_trivia shown formed _).bind fun moved => .optional (quiet_newline .right).inner ?_
    refine .optional inner_ensureSpace (.optional quiet_exempt.inner ?_)
    exact .pure fun _ => id

omit shown in
theorem inner_closeBlockStatement (onLines written : Bool) :
    Inner (closeBlockStatement onLines written) := by
  unfold closeBlockStatement
  refine .read (fun page tidy settings => by rw [onBlankLine_under tidy]) fun page => ?_
  refine .ite ?_ (.pure fun _ => id)
  exact (quiet_newline .stay).inner.bind fun _ => inner_setLineEnded true

omit shown in
theorem inner_brace (request : BlockRequest) (written : Bool) : Inner (do
    write "\x7d"
    semicolonIf written
    if !request.noNewlineAfter then
      modify fun page => page.ensureNewline .stay
    setLineEnded true) := by
  have brace : Steady Begun (write "\x7d") fun _ page => page.Begun ∧ page.buffer.breaks = 0 :=
    .modify fun page tidy _ => ⟨moves_write tidy rfl false, begun_write _ _, rfl⟩
  have semicolon : Steady (fun page => page.Begun ∧ page.buffer.breaks = 0) (semicolonIf written)
      fun _ page => page.Begun ∧ page.buffer.breaks = 0 := by
    refine .ite ?_ (.pure fun _ => id)
    exact .modify fun page tidy _ => ⟨moves_writeSemicolon tidy, begun_write _ _, rfl⟩
  refine brace.bind fun _ => semicolon.bind fun _ => ?_
  refine .optionally (fun _ => ?_) (fun _ => And.left) (inner_setLineEnded true)
  exact .modify fun page tidy ends =>
    ⟨moves_ensureNewline tidy ends.2 .stay, (moves_ensureNewline tidy ends.2 .stay).kept.begun ends.1⟩

omit shown in
theorem inner_closeBlock (request : BlockRequest) (onLines written : Bool) :
    Inner (closeBlock request onLines written) := by
  unfold closeBlock
  refine .ite ?_ ?_
  · refine quiet_dropBlanks.inner.bind fun _ => (quiet_newline .left).inner.bind fun _ => ?_
    exact inner_brace request written
  · refine quiet_dropSpace.inner.bind fun _ => .read (fun page tidy settings => ?_) fun page => ?_
    · simp only [ne_eq, last?_eq_text_under tidy]
    · exact .optional inner_ensureSpace (inner_brace request written)

theorem opens_openConditional {afterKeyword : Trivia} {condition : Expr}
    (keywordFormed : SlotFormed drawn afterKeyword) (conditionFormed : condition.Formed drawn)
    (hasBlock : Bool) : Opens (openConditional afterKeyword condition hasBlock) := by
  have requested : Quiet (modify fun page => page.requestGroup { move := some .right, respect := some true }) :=
    quiet_fields (fun _ => rfl) (fun _ => rfl) (fun _ => id) fun _ _ => rfl
  unfold openConditional
  refine (opens_write rfl true).bind fun _ => (inner_slot shown keywordFormed _).bind fun _ => ?_
  refine .optional (quiet_requestBlock _).inner (.read (fun _ _ _ => rfl) fun before => ?_)
  refine .optional requested.inner ((steady_expr shown conditionFormed).inner.bind fun _ => ?_)
  exact .read (fun _ _ _ => rfl) fun page => .pure fun _ => id

theorem inner_betweenBranches {between : Trivia} (formed : SlotFormed drawn between) (indented : Bool) :
    Inner (betweenBranches between indented) := by
  unfold betweenBranches
  refine (inner_trivia shown formed _).bind fun moved => ?_
  exact .ite (quiet_newline _).inner (.pure fun _ => id)

theorem inner_openElse {between afterElse : Trivia} (betweenFormed : SlotFormed drawn between)
    (elseFormed : SlotFormed drawn afterElse) (indented continues : Bool) :
    Inner (openElse between indented afterElse continues) := by
  unfold openElse
  refine (inner_betweenBranches shown betweenFormed indented).bind fun _ => ?_
  refine .optional quiet_dropBlanks.inner (inner_ensureSpace.bind fun _ => ?_)
  refine (opens_write rfl true).inner.bind fun _ => .ite ?_ (inner_trivia shown elseFormed _)
  exact (inner_slot shown elseFormed _).bind fun _ => .pure fun _ => id

omit shown in
theorem inner_closeElse (continues moved : Bool) : Inner (closeElse continues moved) := by
  unfold closeElse
  refine .optional (quiet_setIndentation .left).inner ?_
  exact .ite (inner_setLineEnded true) (.pure fun _ => id)

theorem opens_openLoop {keyword : Token} {afterKeyword : Trivia} {condition : Expr}
    (keywordFormed : WordFormed drawn keyword) (afterFormed : SlotFormed drawn afterKeyword)
    (conditionFormed : condition.Formed drawn) : Opens (openLoop keyword afterKeyword condition) := by
  unfold openLoop
  refine (opens_word shown keywordFormed true).bind fun _ => ?_
  refine (inner_slot shown afterFormed _).bind fun _ => ?_
  exact (steady_expr shown conditionFormed).inner

theorem opens_openDo {afterKeyword : Trivia} (formed : SlotFormed drawn afterKeyword) :
    Opens (openDo afterKeyword) := by
  unfold openDo
  refine (opens_write rfl true).bind fun _ => (inner_slot shown formed _).bind fun _ => ?_
  exact (quiet_requestBlock _).inner

theorem inner_closeDo {between : Trivia} {condition : Expr} (betweenFormed : SlotFormed drawn between)
    (conditionFormed : condition.Formed drawn) (written : Bool) :
    Inner (closeDo between condition written) := by
  have rest : Inner (do
      write "until" true
      expr condition
      dropSpace
      let _ ← semicolonAndNewline written .stay) := by
    refine (opens_write rfl true).inner.bind fun _ => ?_
    refine (steady_expr shown conditionFormed).inner.bind fun _ => ?_
    refine quiet_dropSpace.inner.bind fun _ => ?_
    refine (quiet_semicolonAndNewline written .stay).inner.bind fun _ => ?_
    exact .pure fun _ => id
  unfold closeDo
  refine (inner_slot shown betweenFormed _).bind fun _ => quiet_dropBlanks.inner.bind fun _ => ?_
  refine .read (fun page tidy settings => ?_) fun page => .ite ?_ ?_
  · simp only [last?_eq_text_under tidy]
  · exact inner_ensureSpace.bind fun _ => rest
  · exact (quiet_newline .stay).inner.bind fun _ => rest

theorem opens_openFor {afterKeyword afterOpen : Trivia} (keywordFormed : SlotFormed drawn afterKeyword)
    (openFormed : SlotFormed drawn afterOpen) : Opens (openFor afterKeyword afterOpen) := by
  have entered : Quiet (modify enterFor) :=
    quiet_fields (fun _ => rfl) (fun _ => rfl) (fun _ => id) fun _ _ => rfl
  unfold openFor
  refine (opens_write rfl true).bind fun _ => (inner_slot shown keywordFormed _).bind fun _ => ?_
  refine (opens_write rfl false).inner.bind fun _ => entered.inner.bind fun _ => ?_
  exact inner_trivia shown openFormed _

theorem inner_forHeader {afterStart : Trivia} {condition : Option Expr} {afterCondition : Trivia}
    {increment : Option Expr} {afterIncrement afterClose : Trivia}
    (startFormed : SlotFormed drawn afterStart) (conditionFormed : OptionFormed drawn condition)
    (afterConditionFormed : SlotFormed drawn afterCondition)
    (incrementFormed : OptionFormed drawn increment)
    (afterIncrementFormed : SlotFormed drawn afterIncrement)
    (closeFormed : SlotFormed drawn afterClose) (moved : Bool) :
    Inner (forHeader afterStart condition afterCondition increment afterIncrement moved afterClose) := by
  have left : Quiet (modify leaveFor) :=
    quiet_fields (fun _ => rfl) (fun _ => rfl) (fun _ => id) fun _ _ => rfl
  have back : Inner (do
      let broken ← trivia afterIncrement {}
      if !broken then
        dropSpace
      if moved then
        newline .left
      write ")" true
      modify Page.leaveFor
      Print.slot afterClose {}) := by
    refine (inner_trivia shown afterIncrementFormed _).bind fun broken => .optional quiet_dropSpace.inner ?_
    refine .optional (quiet_newline .left).inner ((opens_write rfl true).inner.bind fun _ => ?_)
    exact left.inner.bind fun _ => inner_slot shown closeFormed _
  have front : ∀ {step : Print Unit}, Inner step → Inner (do
      dropSpace
      write ";" true
      Print.slot afterCondition {}
      step
      let broken ← trivia afterIncrement {}
      if !broken then
        dropSpace
      if moved then
        newline .left
      write ")" true
      modify Page.leaveFor
      Print.slot afterClose {}) := by
    intro step inner
    refine quiet_dropSpace.inner.bind fun _ => (opens_write rfl true).inner.bind fun _ => ?_
    exact (inner_slot shown afterConditionFormed _).bind fun _ => inner.bind fun _ => back
  unfold forHeader
  refine (inner_slot shown startFormed _).bind fun _ => ?_
  cases increment with
  | none =>
    cases condition with
    | none => exact front quiet_dropSpace.inner
    | some condition =>
      exact (steady_expr shown conditionFormed).inner.bind fun _ => front quiet_dropSpace.inner
  | some increment =>
    have stepped := (steady_expr shown incrementFormed).inner
    cases condition with
    | none => exact front stepped
    | some condition => exact (steady_expr shown conditionFormed).inner.bind fun _ => front stepped

theorem opens_jump {word : String} (visible : Fragment.ofText word = .text word) {value : Option Expr}
    (formed : OptionFormed drawn value) (written : Bool) : Opens (jump word value written) := by
  have opened : Steady (fun _ => True) (write word) fun _ page =>
      ∃ earlier, page.buffer = .text word :: earlier :=
    .modify fun page tidy _ =>
      ⟨moves_write tidy visible false, page.buffer, congrArg (· :: page.buffer) visible⟩
  have spaced : Steady (fun page => ∃ earlier, page.buffer = .text word :: earlier) (write " ")
      fun _ => Begun := by
    refine .modify fun page tidy isText => ⟨?_, begun_write " " false⟩
    obtain ⟨earlier, shape⟩ := isText
    have neat := tidy.neat
    refine .rewrites (.space :: ·) tidy ?_ (fun _ => List.cons_ne_nil _ _) (fun settled => settled.push _)
      fun _ => rfl
    rw [shape] at neat ⊢
    exact .space neat
  have ends : Inner (do let _ ← semicolonAndNewline written .stay : Print Unit) :=
    (quiet_semicolonAndNewline written .stay).inner.bind fun _ => .pure fun _ => id
  unfold jump
  refine opened.bind fun _ => ?_
  cases value with
  | none =>
    refine ends.weaken (fun page isText => ?_) fun _ _ => id
    obtain ⟨earlier, shape⟩ := isText
    rw [Begun, shape]
    exact List.cons_ne_nil _ _
  | some value =>
    exact spaced.bind fun _ => (steady_expr shown formed).inner.bind fun _ => ends

theorem opens_openDefine {afterKeyword : Trivia} {name : Expr}
    (keywordFormed : SlotFormed drawn afterKeyword) (nameFormed : name.Formed drawn) :
    Opens (openDefine afterKeyword name) := by
  unfold openDefine
  refine (opens_write rfl true).bind fun _ => (inner_slot shown keywordFormed _).bind fun _ => ?_
  refine (steady_expr shown nameFormed).inner.bind fun _ => quiet_dropSpace.inner.bind fun _ => ?_
  exact (quiet_newline .stay).inner

theorem steady_openSwitch {afterKeyword : Trivia} {subject : Expr} {afterOpen : Trivia}
    (keywordFormed : SlotFormed drawn afterKeyword) (subjectFormed : subject.Formed drawn)
    (openFormed : SlotFormed drawn afterOpen) :
    Steady (fun _ => True) (openSwitch afterKeyword subject afterOpen)
      fun _ page => page.Begun ∧ page.Broken := by
  unfold openSwitch
  refine (opens_write rfl true).bind fun _ => (inner_slot shown keywordFormed _).bind fun _ => ?_
  refine (steady_expr shown subjectFormed).inner.bind fun _ => inner_ensureSpace.bind fun _ => ?_
  refine (opens_write rfl true).inner.bind fun _ => ?_
  refine (steady_trivia shown openFormed _).bind fun moved => ?_
  cases moved with
  | true => exact .pure fun _ ends => ⟨ends.1, ends.2 rfl⟩
  | false =>
    refine .modify fun page tidy ends => ⟨moves_newline tidy .right, ?_⟩
    exact ⟨(moves_newline tidy .right).kept.begun ends.1, broken_newline tidy ends.1 .right⟩

omit shown in
theorem settles_write {content : String} (visible : Fragment.ofText content = .text content)
    (spaceAfter : Bool) :
    Steady (fun page => page.Begun ∧ page.Broken) (write content spaceAfter)
      fun _ page => page.Begun ∧ page.Settled := by
  refine .modify fun page tidy ends => ⟨moves_write tidy visible spaceAfter, begun_write _ _, ?_⟩
  have settled : Buffer.Settled (.text content :: page.buffer) := .of_text ends.2
  unfold Page.write
  rw [visible]
  cases spaceAfter with
  | false => exact settled
  | true => exact settled.push _

theorem steady_openBranch {label : Option Expr} {afterKeyword afterColon : Trivia}
    (labelFormed : OptionFormed drawn label) (keywordFormed : SlotFormed drawn afterKeyword)
    (colonFormed : SlotFormed drawn afterColon) :
    Steady (fun page => page.Begun ∧ page.Broken) (openBranch label afterKeyword afterColon)
      fun _ page => page.Begun ∧ page.Settled := by
  have rest : Inner (do
      dropSpace
      write ":" true
      let saved := (← get).indentation
      let moved ← trivia afterColon { move := .right }
      if !moved then
        newline .right
      return saved) := by
    refine quiet_dropSpace.inner.bind fun _ => (opens_write rfl true).inner.bind fun _ => ?_
    refine .read (fun _ _ _ => rfl) fun page => (inner_trivia shown colonFormed _).bind fun moved => ?_
    exact .optional (quiet_newline .right).inner (.pure fun _ => id)
  unfold openBranch
  cases label with
  | none => exact (settles_write rfl true).bind fun _ => rest.settled
  | some label =>
    refine (settles_write rfl true).bind fun _ => ?_
    refine (inner_slot shown keywordFormed _).settled.bind fun _ => ?_
    exact (steady_expr shown labelFormed).inner.settled.bind fun _ => rest.settled

omit shown in
theorem steady_closeSwitch (written : Bool) :
    Steady Begun (closeSwitch written) fun _ page => page.Begun ∧ page.Settled := by
  have broken : Steady Begun (newline .left) fun _ page => page.Begun ∧ page.Broken :=
    .modify fun page tidy begun => ⟨moves_newline tidy .left,
      (moves_newline tidy .left).kept.begun begun, broken_newline tidy begun .left⟩
  unfold closeSwitch
  refine quiet_dropBlanks.inner.bind fun _ => ?_
  refine broken.bind fun _ => (settles_write rfl false).bind fun _ => ?_
  exact (quiet_semicolonIf written).inner.settled

end

/-- Steady, but for a text that may be dropped from behind the last line break. -/
def Loose {α : Type} (pre : Page → Prop) (action : Print α) (post : α → Page → Prop) : Prop :=
  ∀ page, page.Tidy → pre page → (after action page).Tidy ∧ post (given action page) (after action page) ∧
    ∀ settings, action.run (page.under settings) =
      (given action page, (after action page).under settings)

section

variable {α β : Type} {pre : Page → Prop} {action : Print α} {post : α → Page → Prop}

theorem Steady.loose (steady : Steady pre action post) : Loose pre action post := by
  intro page tidy holds
  obtain ⟨moves, ends⟩ := steady page tidy holds
  exact ⟨moves.kept.tidy, ends, moves.under⟩

theorem Loose.bind {next : α → Print β} {ends : β → Page → Prop} (first : Loose pre action post)
    (second : ∀ value, Loose (post value) (next value) ends) : Loose pre (action >>= next) ends := by
  intro page tidy holds
  obtain ⟨kept, between, front⟩ := first page tidy holds
  obtain ⟨laid, behind, back⟩ := second _ _ kept between
  refine ⟨laid, behind, fun settings => ?_⟩
  show (next (action.run (page.under settings)).1).run (action.run (page.under settings)).2 = _
  rw [front]
  exact back settings

theorem Loose.steady (loose : Loose pre action fun _ page => page.Begun ∧ page.Settled) :
    Steady pre action fun _ => Begun := by
  intro page tidy holds
  obtain ⟨laid, ends, under⟩ := loose page tidy holds
  exact ⟨⟨⟨laid, fun _ => ends.1, fun _ => ends.2⟩, under⟩, ends.1⟩

end

theorem loose_closeBranch (saved : Int) :
    Loose (fun page => page.Begun ∧ page.Settled) (closeBranch saved)
      fun _ page => page.Begun ∧ page.Broken := by
  intro page tidy holds
  have below := breaks_dropLine tidy holds.2.newline_mem
  have dropped : page.dropLine.Tidy :=
    ⟨tidy.tabs, tidy.neat.dropLine, fun _ => Buffer.ne_nil_of_breaks below⟩
  have moves := moves_indentTo dropped below saved
  refine ⟨moves.kept.tidy, ⟨moves.kept.begun (Buffer.ne_nil_of_breaks below), ?_⟩, fun settings => ?_⟩
  · exact List.mem_append_right _ (Buffer.newline_mem_of_breaks below)
  · have spread : (page.under settings).dropLine = page.dropLine.under settings :=
      congrArg (fun buffer => ({ page with settings := settings, buffer := buffer } : Page))
        (Buffer.dropLine_spread settings.eq_blank_of_mem_unit settings.blank_indents tidy.neat)
    show ((), (page.under settings).dropLine.indentTo saved) = _
    rw [spread, moves.under]
    rfl

variable {drawn : Token → Prop}

mutual

theorem steady_stmt (shown : ∀ token, drawn token → token.kind ≠ .newline → token.Shown) :
    ∀ {statement : Stmt}, statement.Formed drawn →
    Steady (fun _ => True) (stmt statement) fun _ page => statement ≠ .expression .newline false → page.Begun
  | .declaration keyword afterKeyword declared written, formed => by
    obtain ⟨keywordFormed, afterFormed, declaredFormed⟩ := formed
    rw [stmt]
    exact .ended (Print.written
      (opens_declaration shown keywordFormed afterFormed declaredFormed written)) _
  | .enumeration afterKeyword name afterOpen members written, formed => by
    obtain ⟨keywordFormed, nameFormed, openFormed, membersFormed⟩ := formed
    rw [stmt]
    refine .ended (Print.written (Steady.bind ?_ fun _ => (quiet_closeEnumeration written).inner)) _
    exact opens_enumerationMembers shown keywordFormed nameFormed openFormed membersFormed
  | .expression value written, formed => by
    rw [stmt]
    cases written with
    | false =>
      refine ((steady_expr shown formed).bind fun _ => ?_).ended false
      exact .pure fun page begun other => begun fun lineBreak => other (lineBreak ▸ rfl)
    | true =>
      have semicolon : Opens (semicolonIf true) :=
        .modify fun page tidy _ => ⟨moves_writeSemicolon tidy, begun_write _ _⟩
      exact .ended (Print.written ((steady_expr shown formed).quiet.bind fun _ => semicolon)) _
  | .block afterOpen body written, formed => by
    rw [stmt]
    refine .ended (Print.written ?_) _
    refine (opens_openBlock shown formed.1 body).bind fun opened => ?_
    exact (inner_blockStmts shown formed.2).bind fun _ => inner_closeBlock _ _ written
  | .conditional afterKeyword test whenTrue between afterElse none written, formed => by
    obtain ⟨keywordFormed, testFormed, trueFormed, betweenFormed, _⟩ := formed
    rw [stmt]
    refine .ended (Print.written ?_) _
    refine (opens_openConditional shown keywordFormed testFormed _).bind fun indented => ?_
    refine (steady_stmt shown trueFormed).inner.bind fun _ => ?_
    exact (inner_betweenBranches shown betweenFormed indented).bind fun _ => (quiet_semicolonIf written).inner
  | .conditional afterKeyword test whenTrue between afterElse (some whenFalse) written, formed => by
    obtain ⟨keywordFormed, testFormed, trueFormed, betweenFormed, elseFormed, falseFormed⟩ := formed
    rw [stmt]
    refine .ended (Print.written ?_) _
    refine (opens_openConditional shown keywordFormed testFormed _).bind fun indented => ?_
    refine (steady_stmt shown trueFormed).inner.bind fun _ => ?_
    refine (inner_openElse shown betweenFormed elseFormed indented _).bind fun moved => ?_
    refine (steady_stmt shown falseFormed).inner.bind fun _ => ?_
    exact (inner_closeElse _ moved).bind fun _ => (quiet_semicolonIf written).inner
  | .loop keyword afterKeyword test body written, formed => by
    obtain ⟨keywordFormed, afterFormed, testFormed, bodyFormed⟩ := formed
    rw [stmt]
    refine .ended (Print.written ?_) _
    refine (opens_openLoop shown keywordFormed afterFormed testFormed).bind fun _ => ?_
    exact (steady_stmt shown bodyFormed).inner.bind fun _ => (quiet_semicolonIf written).inner
  | .doUntil afterKeyword body between test written, formed => by
    obtain ⟨keywordFormed, bodyFormed, betweenFormed, testFormed⟩ := formed
    rw [stmt]
    refine .ended (Print.written ?_) _
    refine (opens_openDo shown keywordFormed).bind fun _ => ?_
    refine (steady_stmt shown bodyFormed).inner.bind fun _ => ?_
    exact inner_closeDo shown betweenFormed testFormed written
  | .forLoop afterKeyword afterOpen none afterStart test afterCondition increment afterIncrement
      afterClose body written, formed => by
    obtain ⟨keywordFormed, openFormed, startFormed, testFormed, conditionFormed, incrementFormed,
      afterIncrementFormed, closeFormed, bodyFormed⟩ := formed
    rw [stmt]
    refine .ended (Print.written ?_) _
    refine (opens_openFor shown keywordFormed openFormed).bind fun moved => ?_
    refine (opens_write rfl true).inner.bind fun _ => ?_
    refine (inner_forHeader shown startFormed testFormed conditionFormed incrementFormed
      afterIncrementFormed closeFormed moved).bind fun _ => ?_
    exact (steady_stmt shown bodyFormed).inner.bind fun _ => (quiet_semicolonIf written).inner
  | .forLoop afterKeyword afterOpen (some start) afterStart test afterCondition increment
      afterIncrement afterClose body written, formed => by
    obtain ⟨keywordFormed, openFormed, firstFormed, startFormed, testFormed, conditionFormed,
      incrementFormed, afterIncrementFormed, closeFormed, bodyFormed⟩ := formed
    rw [stmt]
    refine .ended (Print.written ?_) _
    refine (opens_openFor shown keywordFormed openFormed).bind fun moved => ?_
    refine (steady_stmt shown firstFormed).inner.bind fun _ => inner_ensureSpace.bind fun _ => ?_
    refine (inner_forHeader shown startFormed testFormed conditionFormed incrementFormed
      afterIncrementFormed closeFormed moved).bind fun _ => ?_
    exact (steady_stmt shown bodyFormed).inner.bind fun _ => (quiet_semicolonIf written).inner
  | .switch afterKeyword subject afterOpen cases written, formed => by
    obtain ⟨keywordFormed, subjectFormed, openFormed, casesFormed⟩ := formed
    rw [stmt]
    refine .ended (Print.written (Loose.steady ?_)) _
    refine (steady_openSwitch shown keywordFormed subjectFormed openFormed).loose.bind fun _ => ?_
    refine (loose_branches shown casesFormed).bind fun _ => ?_
    exact ((steady_closeSwitch written).weaken (fun _ => And.left) fun _ _ => id).loose
  | .returning value written, formed => by
    rw [stmt]
    exact .ended (Print.written (opens_jump shown rfl formed written)) _
  | .breaking written, formed => by
    rw [stmt]
    exact .ended (Print.written (@opens_jump _ shown _ rfl none trivial written)) _
  | .exiting written, formed => by
    rw [stmt]
    exact .ended (Print.written (@opens_jump _ shown _ rfl none trivial written)) _
  | .remark form token, formed => by
    rw [stmt]
    exact .ended (Print.written (opens_remark shown form formed)) _
  | .define afterKeyword name body, formed => by
    obtain ⟨keywordFormed, nameFormed, bodyFormed⟩ := formed
    rw [stmt]
    refine .ended (Print.written ?_) _
    exact (opens_openDefine shown keywordFormed nameFormed).bind fun _ => (quiet_stmts shown bodyFormed).inner

theorem quiet_stmts (shown : ∀ token, drawn token → token.kind ≠ .newline → token.Shown) :
    ∀ {statements : List Stmt}, Stmt.ListFormed drawn statements → Quiet (stmts statements)
  | [], _ => .pure fun _ => id
  | first :: others, formed => by
    rw [stmts]
    exact (steady_stmt shown formed.1).quiet.bind fun _ => quiet_stmts shown formed.2

theorem inner_blockStmts (shown : ∀ token, drawn token → token.kind ≠ .newline → token.Shown)
    {onLines : Bool} : ∀ {statements : List Stmt}, Stmt.ListFormed drawn statements →
    Inner (blockStmts onLines statements)
  | [], _ => .pure fun _ => id
  | first :: others, formed => by
    rw [blockStmts]
    refine (steady_stmt shown formed.1).inner.bind fun _ => ?_
    exact (inner_closeBlockStatement onLines _).bind fun _ => inner_blockStmts shown formed.2

theorem loose_branches (shown : ∀ token, drawn token → token.kind ≠ .newline → token.Shown) :
    ∀ {cases : List (Case Stmt)}, Stmt.CasesFormed drawn cases →
    Loose (fun page => page.Begun ∧ page.Broken) (branches cases) fun _ page => page.Begun ∧ page.Broken
  | [], _ => Steady.loose (.pure fun _ => id)
  | ⟨label, afterKeyword, afterColon, body⟩ :: others, formed => by
    obtain ⟨labelFormed, keywordFormed, colonFormed, bodyFormed, othersFormed⟩ := formed
    rw [branches]
    refine (steady_openBranch shown labelFormed keywordFormed colonFormed).loose.bind fun saved => ?_
    refine (quiet_stmts shown bodyFormed).inner.settled.loose.bind fun _ => ?_
    exact (loose_closeBranch saved).bind fun _ => loose_branches shown othersFormed

end

theorem quiet_stmt (shown : ∀ token, drawn token → token.kind ≠ .newline → token.Shown)
    {statement : Stmt} (formed : statement.Formed drawn) : Quiet (stmt statement) :=
  (steady_stmt shown formed).quiet

end GmlLayout.Print
