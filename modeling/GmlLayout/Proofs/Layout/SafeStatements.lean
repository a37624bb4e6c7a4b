import GmlLayout.Proofs.Layout.Endings

/-!
Statements that shelter their remarks can be laid out on a free page and leave it free. A remark that is a
statement itself may block its line; then a line break follows that counts, or the program ends.
-/

namespace GmlLayout.Print

open Page

/-! Statements in a row. -/

structure Entry (outermost fresh openEnd : Bool) (statements : List Stmt) (page : Page) : Prop where
  /-- A blocked line is freed by the line break that follows. -/
  ready : page.Free ∨ page.buffer.intact = true ∧ page.lineEnded = false ∧
    Stmt.goesOn outermost statements = true
  fresh : fresh = true → page.lineEnded = false
  isOpen : openEnd = true → page.EndsOpen isOwn

theorem Entry.done {outermost fresh openEnd : Bool} {page : Page}
    (entry : Entry outermost fresh openEnd [] page) :
    page.buffer.intact = true ∧ (outermost = false → page.Free) := by
  obtain free | ⟨whole, _, isOutermost⟩ := entry.ready
  · exact ⟨free.intact, fun _ => free⟩
  · exact ⟨whole, fun isInner => absurd (isInner.symm.trans isOutermost) Bool.false_ne_true⟩

theorem Entry.of_free {outermost : Bool} {statements : List Stmt} {page : Page} (free : page.Free) :
    Entry outermost false false statements page :=
  ⟨.inl free, (absurd · Bool.false_ne_true), (absurd · Bool.false_ne_true)⟩

theorem free_lineBreak {page : Page} (whole : page.buffer.intact = true) (fresh : page.lineEnded = false)
    (written : Bool) : (after (stmt (.expression .newline written)) page).Free := by
  have broken : (after (Print.expr .newline) page).Free := by
    rw [Print.expr]
    show Page.Free (after (ite _ _ _) page.exempt)
    split
    · exact safe_closeExpression rfl _ (@free_newline page.exempt whole .stay)
    · rename_i ended
      have isEnded : page.exempt.lineEnded = true := by simpa using ended
      cases fresh.symm.trans isEnded
  rw [stmt]
  cases written with
  | true => exact free_terminate broken.writeSemicolon (.inl rfl)
  | false => exact free_terminate broken (.inr (.inl (claims_expr .newline page (.inl rfl))))

/-- A remark among statements leaves the page free, or blocked in front of a line break that counts. -/
theorem remark_ready {outermost fresh openEnd : Bool} {form : RemarkForm} {token : Token}
    {others : List Stmt} {page : Page}
    (sheltered : Stmt.remarkSheltered form token fresh openEnd (Stmt.goesOn outermost others) = true)
    (entry : Entry outermost fresh openEnd (.remark form token :: others) page) :
    (after (remark form token) page).Free ∨ (after (remark form token) page).buffer.intact = true ∧
      (after (remark form token) page).lineEnded = false ∧ Stmt.goesOn outermost others = true := by
  rw [Stmt.remarkSheltered, Bool.and_eq_true, Bool.or_eq_true, Bool.or_eq_true, Bool.and_eq_true] at sheltered
  obtain ⟨place, followed⟩ := sheltered
  have settles : ∀ {next : Page}, next.buffer.intact = true ∧ (token.isLineBound = false → next.Free) →
      next.lineEnded = false → next.Free ∨ next.buffer.intact = true ∧ next.lineEnded = false ∧
        Stmt.goesOn outermost others = true := by
    intro next written fresh
    obtain unbound | goesOn := followed
    · exact .inl (written.2 (by simpa using unbound))
    · exact .inr ⟨written.1, fresh, goesOn⟩
  obtain free | ⟨_, _, broken⟩ := entry.ready
  · unfold remark
    by_cases comment : form.isComment = true
    · rw [if_pos comment, after_bind]
      by_cases ended : page.lineEnded = true
      · have isOpen : page.Open := by
          obtain fresh | ⟨_, isOpen⟩ := place
          · cases ended.symm.trans (entry.fresh fresh)
          · exact open_of_endsOpen (entry.isOpen isOpen)
        refine .inl ?_
        rw [if_pos (show (given get page : Page).lineEnded = true from ended)]
        exact free_newline ((free.dropBlanks isOpen).ensureSpace.writeToken token false).1 .stay
      · rw [if_neg (show ¬(given get page : Page).lineEnded = true from ended)]
        exact settles (free.writeToken token true) (Bool.not_eq_true _ |>.mp ended)
    · rw [if_neg comment]
      have fresh : page.lineEnded = false := by
        obtain fresh | ⟨isComment, _⟩ := place
        · exact entry.fresh fresh
        · exact absurd isComment comment
      have written := free.writeToken token false
      refine settles ⟨Buffer.intact_dropSpace written.1, fun unbound => (written.2 unbound).dropSpace⟩ fresh
  · cases broken

/-- A statement that is no remark leaves the page free, and a line break frees a blocked one. -/
theorem Entry.free {outermost fresh openEnd : Bool} {first : Stmt} {others : List Stmt} {page : Page}
    (entry : Entry outermost fresh openEnd (first :: others) page) (safe : Safe (stmt first)) :
    (after (stmt first) page).Free := by
  obtain free | ⟨whole, fresh, broken⟩ := entry.ready
  · exact safe page free
  · cases first with
    | expression expr written =>
      cases expr with
      | newline => exact free_lineBreak whole fresh written
      | _ => cases broken
    | _ => cases broken

/-- One statement leads from a page on which it can be laid out to one on which those behind it can. -/
theorem Entry.step {outermost fresh openEnd : Bool} {first : Stmt} {others : List Stmt} {page : Page}
    (entry : Entry outermost fresh openEnd (first :: others) page)
    (safe : first.isRemark = false → Safe (stmt first))
    (remarked : ∀ form token, first = .remark form token →
      Stmt.remarkSheltered form token fresh openEnd (Stmt.goesOn outermost others) = true) :
    Entry outermost first.leavesFresh (endsOpen isOwn first.leaves) others (after (stmt first) page) where
  ready := by
    cases isRemark : first.isRemark with
    | true =>
      cases first with
      | remark form token =>
        rw [stmt]
        exact remark_ready (remarked form token rfl) entry
      | _ => cases isRemark
    | false => exact .inl (entry.free (safe isRemark))
  fresh fresh := lineEnded_of_leavesFresh fresh page
  isOpen ends := ends_stmt rfl rfl first page false (absurd · Bool.false_ne_true) (tailOpen_of_endsOpen ends false)

theorem Entry.closeBlockStatement {outermost openEnd onLines : Bool} {first : Stmt} {others : List Stmt}
    {page : Page} (free : first.hasSemicolon = true → page.Free)
    (entry : Entry outermost first.leavesFresh openEnd others page) :
    Entry outermost first.leavesFresh openEnd others
      (after (Print.closeBlockStatement onLines first.hasSemicolon) page) := by
  have unfresh : first.hasSemicolon = true → first.leavesFresh = false := by
    intro written
    cases first with
    | expression expr semicolon => rw [Stmt.leavesFresh, show semicolon = true from written]; rfl
    | _ => rfl
  unfold Print.closeBlockStatement
  rw [after_bind]
  split
  · rename_i starts
    simp only [Bool.and_eq_true] at starts
    refine ⟨.inl (free_newline (free starts.1.2).intact .stay), fun fresh => ?_, fun ends => ?_⟩
    · cases (unfresh starts.1.2).symm.trans fresh
    · rw [EndsOpen, after_bind, kept_setLineEnded, kept_newline]
      exact entry.isOpen ends
  · exact entry

/-! The parts of statements. -/

theorem safe_setLineEnded (ended : Bool) : Safe (setLineEnded ended) :=
  safe_fields fun _ => rfl

theorem safe_requestBlock (request : BlockRequest) : Safe (modify fun page => page.requestBlock request) :=
  safe_fields fun _ => rfl

theorem safe_semicolonIf (written : Bool) : Safe (semicolonIf written) :=
  .ite (fun _ _ free => free.writeSemicolon) fun _ => .pure

theorem safe_semicolonAndNewline (written : Bool) (move : Move) : Safe (semicolonAndNewline written move) := by
  unfold semicolonAndNewline
  refine Keeps.bind (fun _ free => free.writeSemicolon) fun _ => .ite (fun _ => .pure) fun _ => ?_
  exact (safe_newline move).bind fun _ => .pure

theorem safe_repeatedKeyword {declared : Variable} (unbound : declared.keyword.all (!·.isLineBound) = true)
    (sheltered : slotSheltered declared.afterKeyword = true) (indented : Bool) :
    Safe (repeatedKeyword declared indented) := by
  obtain ⟨target, keyword, afterKeyword⟩ := declared
  unfold repeatedKeyword
  cases keyword with
  | none => exact .pure
  | some keyword =>
    refine (safe_writeToken (by simpa using unbound) true).bind fun _ => ?_
    exact (safe_trivia sheltered _).bind fun _ => .pure

theorem safe_variableTrivia {trailing : Trivia} (sheltered : slotSheltered trailing = true) (indented : Bool) :
    Safe (variableTrivia trailing indented) := by
  unfold variableTrivia
  refine .ite (fun _ => .pure) fun _ => safe_openFrame.bind fun _ => ?_
  refine (safe_trivia sheltered _).bind fun moved => .ite (fun _ => .pure) fun _ => ?_
  exact safe_closeFrame.bind fun _ => .pure

theorem safe_variableList (endDelimited : Bool) {items : List (Item Variable)}
    (sheltered : variablesSheltered endDelimited items = true) (indented : Bool) :
    Safe (variableList endDelimited items indented) := by
  induction items generalizing indented with
  | nil => exact .pure
  | cons item others ih =>
    obtain ⟨declared, trailing⟩ := item
    simp only [variablesSheltered, Bool.and_eq_true] at sheltered
    obtain ⟨⟨⟨⟨⟨unbound, keywordSheltered⟩, targetSheltered⟩, trailingSheltered⟩, ends⟩, later⟩ := sheltered
    have rest : ∀ openEnd indented, Safe (do
        let indented ← variableTrivia trailing indented
        if others.isEmpty then return (indented, openEnd) else variableList endDelimited others indented) := by
      intro openEnd indented
      refine (safe_variableTrivia trailingSheltered indented).bind fun indented => ?_
      exact .ite (fun _ => .pure) fun _ => ih later indented
    unfold variableList
    refine (safe_repeatedKeyword unbound keywordSheltered indented).bind fun indented => ?_
    refine safe_openFrame.bind fun _ => ?_
    intro page free
    let next := after (modify closeFrame) (after dropSpace (after (Print.expr declared.target) page))
    have nextFree : next.Free :=
      safe_closeFrame _ (safe_dropSpace _ (harmless _ targetSheltered page free))
    show Page.Free (after (ite _ _ _) next)
    split
    · exact ((safe_write rfl true).bind fun _ => rest _ _) next nextFree
    · rename_i undelimited
      have ink : next.kept isOwnCode = page.kept isOwnCode ++ keptInk isOwnCode declared.target.leaves := by
        simp [next, kept_expr]
      have code : next.EndsOpen isCode := by
        have targetEnds : endsOpen isOwnCode declared.target.leaves = true := by
          rw [Bool.or_eq_true] at ends
          exact ends.resolve_left undelimited
        apply any_getLast?_of_own
        rw [kept, List.filter_filter]
        exact endsOpen_of_kept ink targetEnds
      split
      · exact rest _ _ _ ((placeSemicolon_intact nextFree.intact code).2 nextFree)
      · exact rest _ _ next nextFree



theorem safe_declaration {keyword : Token} {afterKeyword : Trivia} {declared : Series Variable}
    (unbound : keyword.isLineBound = false) (keywordSheltered : slotSheltered afterKeyword = true)
    (sheltered : variablesSheltered declared.endDelimited declared.items = true) (written : Bool) :
    Safe (declaration keyword afterKeyword declared written) := by
  unfold declaration
  refine (safe_writeToken unbound true).bind fun _ => (safe_trivia keywordSheltered _).bind fun moved => ?_
  refine (safe_variableList _ sheltered moved).bind fun ends => ?_
  refine .optional (fun _ => safe_semicolonIf written) (.optional (fun _ => safe_stepBack) (.read fun page => ?_))
  exact .ite (fun _ => (safe_newline .stay).bind fun _ => safe_setLineEnded true) fun _ => .pure

theorem safe_enumerationMembers {afterKeyword : Trivia} {name : Expr} {afterOpen : Trivia}
    {members : Series Expr} (keywordSheltered : slotSheltered afterKeyword = true)
    (nameSheltered : name.sheltered = true) (openSheltered : slotSheltered afterOpen = true)
    (membersSheltered : Expr.entriesSheltered members.items = true) :
    Safe (enumerationMembers afterKeyword name afterOpen members) := by
  unfold enumerationMembers
  refine (safe_write rfl true).bind fun _ => (safe_slot keywordSheltered _).bind fun _ => ?_
  refine (harmless _ nameSheltered).bind fun _ => (safe_write rfl true).bind fun _ => ?_
  refine (safe_trivia openSheltered _).bind fun moved => .optional (fun _ => safe_newline .right) ?_
  exact safe_dropSpace.bind fun _ => harmlessItems _ membersSheltered _ _ _

theorem safe_closeEnumeration (written : Bool) : Safe (closeEnumeration written) := by
  have braced : Safe (modify fun page => (page.setIndentation .left).dropLine.write "\x7d") :=
    fun page free => (@Free.dropLine (page.setIndentation .left) free).write rfl false
  exact braced.bind fun _ => safe_semicolonIf written

theorem safe_openBlock {afterOpen : Trivia} (sheltered : slotSheltered afterOpen = true) (body : List Stmt) :
    Safe (openBlock afterOpen body) := by
  have taken : Safe (modifyGet takeBlockRequest) := by
    refine safe_fields fun page => ?_
    show page.takeBlockRequest.2.buffer = page.buffer
    unfold takeBlockRequest
    split <;> rfl
  unfold openBlock
  refine .read fun page => .optional (fun _ => safe_ensureSpace) (taken.bind fun request => ?_)
  refine (safe_write rfl false).bind fun _ => (safe_trivia sheltered _).bind fun moved => ?_
  refine .optional (fun _ => safe_newline .right) (.optional (fun _ => safe_ensureSpace) ?_)
  exact .optional (fun _ => safe_exempt) .pure

theorem safe_freshLine (move : Move) : Safe (do dropBlanks; newline move) :=
  fun _ free => free_newline (Buffer.intact_dropBlanks free.intact) move

theorem safe_closeBlock (request : BlockRequest) (onLines written : Bool) :
    Safe (closeBlock request onLines written) := by
  have brace : Safe (do
      write "\x7d"
      semicolonIf written
      if !request.noNewlineAfter then
        modify fun page => page.ensureNewline .stay
      setLineEnded true) := by
    have broken : Safe (modify fun page => page.ensureNewline .stay) := by
      intro page free
      show Page.Free (page.ensureNewline .stay)
      unfold Page.ensureNewline
      split
      · exact free
      · exact free_newline free.intact .stay
    refine (safe_write rfl false).bind fun _ => (safe_semicolonIf written).bind fun _ => ?_
    exact .optional (fun _ => broken) (safe_setLineEnded true)
  unfold closeBlock
  refine .ite (fun _ => ?_) fun _ => ?_
  · exact (safe_freshLine .left).bind fun _ => brace
  · exact safe_dropSpace.bind fun _ => .read fun page => .optional (fun _ => safe_ensureSpace) brace

theorem safe_openConditional {afterKeyword : Trivia} {condition : Expr}
    (keywordSheltered : slotSheltered afterKeyword = true) (conditionSheltered : condition.sheltered = true)
    (hasBlock : Bool) : Safe (openConditional afterKeyword condition hasBlock) := by
  unfold openConditional
  refine (safe_write rfl true).bind fun _ => (safe_slot keywordSheltered _).bind fun _ => ?_
  refine .optional (fun _ => safe_requestBlock _) (.read fun before => ?_)
  refine .optional (fun _ => safe_fields fun _ => rfl) ((harmless _ conditionSheltered).bind fun _ => ?_)
  exact .read fun page => .pure

theorem safe_betweenBranches {between : Trivia} (sheltered : slotSheltered between = true) (indented : Bool) :
    Safe (betweenBranches between indented) := by
  unfold betweenBranches
  refine (safe_trivia sheltered _).bind fun moved => ?_
  exact .ite (fun _ => safe_newline _) fun _ => .pure

theorem free_openElse {between afterElse : Trivia} (betweenSheltered : slotSheltered between = true)
    (elseSheltered : slotSheltered afterElse = true) (indented continues : Bool) {page : Page}
    (free : page.Free) (ends : (after (betweenBranches between indented) page).Open) :
    (after (openElse between indented afterElse continues) page).Free := by
  have rest : Safe (do
      ensureSpace
      write "else" true
      if continues then
        slot afterElse {}
        return false
      else
        trivia afterElse (.respecting .right .one)) := by
    refine safe_ensureSpace.bind fun _ => (safe_write rfl true).bind fun _ => ?_
    refine .ite (fun _ => ?_) fun _ => safe_trivia elseSheltered _
    exact (safe_slot elseSheltered _).bind fun _ => .pure
  have reached := safe_betweenBranches betweenSheltered indented page free
  unfold openElse
  cases indented with
  | false => exact rest _ (reached.dropBlanks ends)
  | true => exact rest _ reached

theorem safe_closeElse (continues moved : Bool) : Safe (closeElse continues moved) := by
  unfold closeElse
  refine .optional (fun _ => safe_fields fun _ => rfl) ?_
  exact .ite (fun _ => safe_setLineEnded true) fun _ => .pure

theorem safe_openLoop {keyword : Token} {afterKeyword : Trivia} {condition : Expr}
    (unbound : keyword.isLineBound = false) (keywordSheltered : slotSheltered afterKeyword = true)
    (conditionSheltered : condition.sheltered = true) : Safe (openLoop keyword afterKeyword condition) := by
  unfold openLoop
  refine (safe_writeToken unbound true).bind fun _ => (safe_slot keywordSheltered _).bind fun _ => ?_
  exact harmless _ conditionSheltered

theorem safe_openDo {afterKeyword : Trivia} (sheltered : slotSheltered afterKeyword = true) :
    Safe (openDo afterKeyword) := by
  unfold openDo
  refine (safe_write rfl true).bind fun _ => (safe_slot sheltered _).bind fun _ => ?_
  exact safe_requestBlock _

theorem safe_closeDo {between : Trivia} {condition : Expr} (betweenSheltered : slotSheltered between = true)
    (conditionSheltered : condition.sheltered = true) (written : Bool) :
    Safe (closeDo between condition written) := by
  have rest : Safe (do
      write "until" true
      expr condition
      dropSpace
      let _ ← semicolonAndNewline written .stay) := by
    refine (safe_write rfl true).bind fun _ => (harmless _ conditionSheltered).bind fun _ => ?_
    exact safe_dropSpace.bind fun _ => (safe_semicolonAndNewline written .stay).bind fun _ => .pure
  unfold closeDo
  refine (safe_slot betweenSheltered _).bind fun _ => ?_
  intro page free
  let bare := page.dropBlanks.2
  have whole : bare.buffer.intact = true := Buffer.intact_dropBlanks free.intact
  show Page.Free (after (ite _ _ _) bare)
  split
  · rename_i braced
    have unblocked : bare.buffer.blocked = false := by
      have last : bare.buffer.head? = some (.text "\x7d") := braced
      obtain ⟨earlier, shape⟩ := List.head?_eq_some_iff.mp last
      rw [shape]
      rfl
    have free : bare.Free := ⟨whole, unblocked⟩
    exact rest _ free.ensureSpace
  · exact rest _ (free_newline whole .stay)

theorem safe_openFor {afterKeyword afterOpen : Trivia} (keywordSheltered : slotSheltered afterKeyword = true)
    (openSheltered : slotSheltered afterOpen = true) : Safe (openFor afterKeyword afterOpen) := by
  unfold openFor
  refine (safe_write rfl true).bind fun _ => (safe_slot keywordSheltered _).bind fun _ => ?_
  refine (safe_write rfl false).bind fun _ => Keeps.bind (safe_fields fun _ => rfl) fun _ => ?_
  exact safe_trivia openSheltered _

theorem safe_forHeader {afterStart : Trivia} {condition : Option Expr} {afterCondition : Trivia}
    {increment : Option Expr} {afterIncrement afterClose : Trivia}
    (startSheltered : slotSheltered afterStart = true)
    (conditionSheltered : Expr.optionSheltered condition = true)
    (afterConditionSheltered : slotSheltered afterCondition = true)
    (incrementSheltered : Expr.optionSheltered increment = true)
    (afterIncrementSheltered : slotSheltered afterIncrement = true)
    (closeSheltered : slotSheltered afterClose = true) (moved : Bool) :
    Safe (forHeader afterStart condition afterCondition increment afterIncrement moved afterClose) := by
  have close : Safe (do
      let broken ← trivia afterIncrement {}
      if !broken then
        dropSpace
      if moved then
        newline .left
      write ")" true
      modify Page.leaveFor
      slot afterClose {}) := by
    refine (safe_trivia afterIncrementSheltered _).bind fun broken => .optional (fun _ => safe_dropSpace) ?_
    refine .optional (fun _ => safe_newline .left) ((safe_write rfl true).bind fun _ => ?_)
    exact Keeps.bind (safe_fields fun _ => rfl) fun _ => safe_slot closeSheltered _
  have middle : Safe (do dropSpace; write ";" true; slot afterCondition {}) :=
    safe_dropSpace.bind fun _ => (safe_write rfl true).bind fun _ => safe_slot afterConditionSheltered _
  unfold forHeader
  refine (safe_slot startSheltered _).bind fun _ => ?_
  cases condition with
  | none =>
    cases increment with
    | none => exact middle.bind fun _ => safe_dropSpace.bind fun _ => close
    | some increment => exact middle.bind fun _ => (harmless _ incrementSheltered).bind fun _ => close
  | some condition =>
    refine (harmless _ conditionSheltered).bind fun _ => ?_
    cases increment with
    | none => exact middle.bind fun _ => safe_dropSpace.bind fun _ => close
    | some increment => exact middle.bind fun _ => (harmless _ incrementSheltered).bind fun _ => close

theorem safe_openSwitch {afterKeyword : Trivia} {subject : Expr} {afterOpen : Trivia}
    (keywordSheltered : slotSheltered afterKeyword = true) (subjectSheltered : subject.sheltered = true)
    (openSheltered : slotSheltered afterOpen = true) : Safe (openSwitch afterKeyword subject afterOpen) := by
  unfold openSwitch
  refine (safe_write rfl true).bind fun _ => (safe_slot keywordSheltered _).bind fun _ => ?_
  refine (harmless _ subjectSheltered).bind fun _ => safe_ensureSpace.bind fun _ => ?_
  refine (safe_write rfl true).bind fun _ => (safe_trivia openSheltered _).bind fun moved => ?_
  exact .ite (fun _ => safe_newline .right) fun _ => .pure

theorem safe_openBranch {label : Option Expr} {afterKeyword afterColon : Trivia}
    (labelSheltered : Expr.optionSheltered label = true) (keywordSheltered : slotSheltered afterKeyword = true)
    (colonSheltered : slotSheltered afterColon = true) : Safe (openBranch label afterKeyword afterColon) := by
  have rest : Safe (do
      dropSpace
      write ":" true
      let saved := (← get).indentation
      let moved ← trivia afterColon { move := .right }
      if !moved then
        newline .right
      return saved) := by
    refine safe_dropSpace.bind fun _ => (safe_write rfl true).bind fun _ => .read fun page => ?_
    refine (safe_trivia colonSheltered _).bind fun moved => ?_
    exact .optional (fun _ => safe_newline .right) .pure
  unfold openBranch
  cases label with
  | none => exact (safe_write rfl true).bind fun _ => rest
  | some label =>
    refine (safe_write rfl true).bind fun _ => (safe_slot keywordSheltered _).bind fun _ => ?_
    exact (harmless _ labelSheltered).bind fun _ => rest

theorem safe_closeBranch (saved : Int) : Safe (closeBranch saved) :=
  fun _ free => free.dropLine.indentTo saved

theorem safe_closeSwitch (written : Bool) : Safe (closeSwitch written) := by
  unfold closeSwitch
  exact (safe_freshLine .left).bind fun _ => (safe_write rfl false).bind fun _ => safe_semicolonIf written

theorem safe_openDefine {afterKeyword : Trivia} {name : Expr}
    (keywordSheltered : slotSheltered afterKeyword = true) (nameSheltered : name.sheltered = true) :
    Safe (openDefine afterKeyword name) := by
  unfold openDefine
  refine (safe_write rfl true).bind fun _ => (safe_slot keywordSheltered _).bind fun _ => ?_
  refine (harmless _ nameSheltered).bind fun _ => safe_dropSpace.bind fun _ => ?_
  exact safe_newline .stay

theorem endsOpen_semicolonAndNewline (written : Bool) (move : Move) (page : Page) :
    (after (semicolonAndNewline written move) page).EndsOpen isCode := by
  have ink : (textInk ";").filter isCode = [";"] := by decide
  have kept : (after (semicolonAndNewline written move) page).kept isCode = page.kept isCode ++ [";"] := by
    cases written <;> simp [semicolonAndNewline, Page.writeSemicolon, ink]
  rw [EndsOpen, kept, List.getLast?_concat]
  decide

theorem endsOpen_closeDo (between : Trivia) (condition : Expr) (written : Bool) (page : Page) :
    (after (closeDo between condition written) page).EndsOpen isCode := by
  unfold closeDo
  simp only [after_bind]
  split
  · exact endsOpen_semicolonAndNewline written .stay _
  · exact endsOpen_semicolonAndNewline written .stay _

theorem safe_jump {word : String} (unbound : isLineBound word = false) {value : Option Expr}
    (sheltered : Expr.optionSheltered value = true) (written closed : Bool) :
    Safe (ended closed (jump word value written)) := by
  have spoken : Safe (jump word value written) := by
    have close : Safe (do let _ ← semicolonAndNewline written .stay : Print Unit) :=
      (safe_semicolonAndNewline written .stay).bind fun _ => .pure
    unfold jump
    refine (safe_write unbound false).bind fun _ => ?_
    cases value with
    | none => exact close
    | some value =>
      exact (safe_write rfl false).bind fun _ => (harmless _ sheltered).bind fun _ => close
  refine fun page free => free_terminate (spoken page free) (.inr (.inr ?_))
  unfold jump
  cases value with
  | none => exact endsOpen_semicolonAndNewline written .stay _
  | some value => exact endsOpen_semicolonAndNewline written .stay _

/-- A statement that shelters its remarks, and is none itself, leaves the page free. -/
def Shelters (statement : Stmt) : Prop :=
  statement.sheltered = true → statement.isRemark = false → Safe (stmt statement)

/-- Statements in a row keep the page intact, and free unless a remark ends the program. -/
def SheltersAll (statements : List Stmt) : Prop :=
  ∀ {outermost fresh openEnd : Bool} {page : Page},
    Stmt.listSheltered outermost fresh openEnd statements = true →
    Entry outermost fresh openEnd statements page →
    (after (stmts statements) page).buffer.intact = true ∧
      (outermost = false → (after (stmts statements) page).Free)

def SheltersBlock (statements : List Stmt) : Prop :=
  ∀ (onLines : Bool) {fresh openEnd : Bool} {page : Page},
    Stmt.listSheltered false fresh openEnd statements = true → Entry false fresh openEnd statements page →
    (after (blockStmts onLines statements) page).Free

def SheltersCases (cases : List (Case Stmt)) : Prop :=
  Stmt.casesSheltered cases = true → Safe (branches cases)

attribute [simp] stmt stmts blockStmts branches

attribute [simp] Stmt.sheltered Stmt.listSheltered Stmt.casesSheltered

namespace Shelters

theorem declaration {keyword : Token} {afterKeyword : Trivia} {declared : Series Variable} {written : Bool} :
    Shelters (.declaration keyword afterKeyword declared written) := by
  intro sheltered _
  simp only [Stmt.sheltered, Bool.and_eq_true, Bool.not_eq_true'] at sheltered
  obtain ⟨⟨⟨unbound, keywordSheltered⟩, declaredSheltered⟩, ready⟩ := sheltered
  refine safe_ended (by rw [stmt]) ?_ ready
  exact safe_declaration unbound keywordSheltered declaredSheltered written

theorem enumeration {afterKeyword afterOpen : Trivia} {name : Expr} {members : Series Expr} {written : Bool} :
    Shelters (.enumeration afterKeyword name afterOpen members written) := by
  intro sheltered _
  simp only [Stmt.sheltered, Bool.and_eq_true] at sheltered
  obtain ⟨⟨⟨keywordSheltered, nameSheltered⟩, openSheltered⟩, membersSheltered⟩ := sheltered
  refine safe_ended (by rw [stmt]) ?_ (by rw [Stmt.leaves, endsOpen_braced, Bool.or_true])
  refine (safe_enumerationMembers keywordSheltered nameSheltered openSheltered membersSheltered).bind ?_
  exact fun _ => safe_closeEnumeration written

theorem expression {expr : Expr} {written : Bool} : Shelters (.expression expr written) := by
  intro sheltered _
  simp only [Stmt.sheltered, Bool.and_eq_true] at sheltered
  obtain ⟨exprSheltered, ready⟩ := sheltered
  have shape : stmt (.expression expr written) = ended (written || false) (do
      Print.expr expr
      semicolonIf written) := by
    rw [stmt]
    rfl
  rw [shape]
  intro page free
  have laid := ((harmless _ exprSheltered).bind fun _ => safe_semicolonIf written) page free
  refine free_terminate laid ?_
  cases written with
  | true => exact .inl rfl
  | false =>
    simp only [Bool.false_or, Bool.or_eq_true] at ready
    obtain claimed | ends := ready
    · exact .inr (.inl (claims_expr expr page (.inl claimed)))
    · exact .inr (.inr (endsOpen_of_leaves shape ends page))

theorem block {afterOpen : Trivia} {body : List Stmt} {written : Bool} (bodyShelters : SheltersBlock body) :
    Shelters (.block afterOpen body written) := by
  intro sheltered _
  simp only [Stmt.sheltered, Bool.and_eq_true] at sheltered
  refine safe_ended (by rw [stmt]) ?_ (by rw [Stmt.leaves, endsOpen_braced, Bool.or_true])
  refine (safe_openBlock sheltered.1 body).bind fun opened => ?_
  refine Keeps.bind (fun page free => ?_) fun _ => safe_closeBlock opened.1 opened.2 written
  exact bodyShelters opened.2 sheltered.2 (.of_free free)

theorem conditionalAlone {afterKeyword between afterElse : Trivia} {test : Expr} {whenTrue : Stmt}
    {written : Bool} (trueShelters : Shelters whenTrue) :
    Shelters (.conditional afterKeyword test whenTrue between afterElse none written) := by
  intro sheltered _
  simp only [Stmt.sheltered, Bool.and_eq_true, Bool.not_eq_true'] at sheltered
  obtain ⟨⟨⟨⟨⟨keywordSheltered, testSheltered⟩, trueSheltered⟩, trueStatement⟩, betweenSheltered⟩,
    ready⟩ := sheltered
  have shape : stmt (.conditional afterKeyword test whenTrue between afterElse none written) =
      ended (written || false) (do
        let indented ← openConditional afterKeyword test whenTrue.isBlock
        stmt whenTrue
        betweenBranches between indented
        semicolonIf written) := by
    rw [stmt]
    rfl
  rw [shape]
  intro page free
  have opened := safe_openConditional keywordSheltered testSheltered whenTrue.isBlock page free
  have filled := trueShelters trueSheltered trueStatement _ opened
  have passed := safe_betweenBranches betweenSheltered
    (given (openConditional afterKeyword test whenTrue.isBlock) page) _ filled
  refine free_terminate (safe_semicolonIf written _ passed) ?_
  cases written with
  | true => exact .inl rfl
  | false =>
    simp only [Bool.false_or, Bool.or_eq_true] at ready
    obtain remarked | ends := ready
    · exact .inr (.inl (claims_betweenBranches between _ _ (.inl remarked)))
    · exact .inr (.inr (endsOpen_of_leaves shape ends page))

theorem conditional {afterKeyword between afterElse : Trivia} {test : Expr} {whenTrue whenFalse : Stmt}
    {written : Bool} (trueShelters : Shelters whenTrue) (falseShelters : Shelters whenFalse) :
    Shelters (.conditional afterKeyword test whenTrue between afterElse (some whenFalse) written) := by
  intro sheltered _
  simp only [Stmt.sheltered, Bool.and_eq_true, Bool.not_eq_true'] at sheltered
  obtain ⟨⟨⟨⟨⟨⟨⟨⟨⟨keywordSheltered, testSheltered⟩, trueSheltered⟩, trueStatement⟩, betweenSheltered⟩,
    ends⟩, elseSheltered⟩, falseSheltered⟩, falseStatement⟩, ready⟩ := sheltered
  refine safe_ended (by rw [stmt]) ?_ ready
  refine (safe_openConditional keywordSheltered testSheltered _).bind fun indented => ?_
  intro page free
  have first : (after (stmt whenTrue) page).Free := trueShelters trueSheltered trueStatement page free
  have rest : ∀ moved, Safe (do
      stmt whenFalse
      closeElse (whenFalse.isBlock || whenFalse.isConditional) moved
      semicolonIf written) := fun moved =>
    (falseShelters falseSheltered falseStatement).bind fun _ => (safe_closeElse _ moved).bind fun _ =>
      safe_semicolonIf written
  have branched : Ends isOwn (keptInk isOwn (whenTrue.leaves ++ slotLeaves between)) (do
      stmt whenTrue
      betweenBranches between indented) := by
    rw [keptInk_append]
    refine (ends_stmt rfl rfl whenTrue).bind fun _ => ?_
    exact Ends.of_kept fun page => kept_betweenBranches page between indented
  refine rest _ _ (free_openElse betweenSheltered elseSheltered indented _ first ?_)
  exact open_of_endsOpen (branched page false (absurd · Bool.false_ne_true) (tailOpen_of_endsOpen ends false))

theorem loop {keyword : Token} {afterKeyword : Trivia} {test : Expr} {body : Stmt} {written : Bool}
    (bodyShelters : Shelters body) : Shelters (.loop keyword afterKeyword test body written) := by
  intro sheltered _
  simp only [Stmt.sheltered, Bool.and_eq_true, Bool.not_eq_true'] at sheltered
  obtain ⟨⟨⟨⟨⟨unbound, keywordSheltered⟩, testSheltered⟩, bodySheltered⟩, bodyStatement⟩, ready⟩ := sheltered
  refine safe_ended (by rw [stmt]) ?_ ready
  refine (safe_openLoop unbound keywordSheltered testSheltered).bind fun _ => ?_
  exact (bodyShelters bodySheltered bodyStatement).bind fun _ => safe_semicolonIf written

theorem doUntil {afterKeyword between : Trivia} {body : Stmt} {test : Expr} {written : Bool}
    (bodyShelters : Shelters body) : Shelters (.doUntil afterKeyword body between test written) := by
  intro sheltered _
  simp only [Stmt.sheltered, Bool.and_eq_true, Bool.not_eq_true'] at sheltered
  obtain ⟨⟨⟨⟨keywordSheltered, bodySheltered⟩, bodyStatement⟩, betweenSheltered⟩, testSheltered⟩ := sheltered
  rw [stmt]
  intro page free
  have filled := bodyShelters bodySheltered bodyStatement _ (safe_openDo keywordSheltered page free)
  refine free_terminate (safe_closeDo betweenSheltered testSheltered written _ filled) (.inr (.inr ?_))
  exact endsOpen_closeDo between test written _

theorem forLoopBare {afterKeyword afterOpen afterStart afterCondition afterIncrement afterClose : Trivia}
    {test increment : Option Expr} {body : Stmt} {written : Bool} (bodyShelters : Shelters body) :
    Shelters (.forLoop afterKeyword afterOpen none afterStart test afterCondition increment afterIncrement afterClose body written) := by
  intro sheltered _
  simp only [Stmt.sheltered, Bool.and_eq_true, Bool.not_eq_true'] at sheltered
  obtain ⟨⟨⟨⟨⟨⟨⟨⟨⟨⟨keywordSheltered, openSheltered⟩, startSheltered⟩, testSheltered⟩, conditionSheltered⟩,
    incrementSheltered⟩, afterIncrementSheltered⟩, closeSheltered⟩, bodySheltered⟩, bodyStatement⟩,
    ready⟩ := sheltered
  refine safe_ended (by rw [stmt]) ?_ ready
  refine (safe_openFor keywordSheltered openSheltered).bind fun moved => ?_
  refine (safe_write rfl true).bind fun _ => ?_
  refine (safe_forHeader startSheltered testSheltered conditionSheltered incrementSheltered
    afterIncrementSheltered closeSheltered moved).bind fun _ => ?_
  exact (bodyShelters bodySheltered bodyStatement).bind fun _ => safe_semicolonIf written

theorem forLoop {afterKeyword afterOpen afterStart afterCondition afterIncrement afterClose : Trivia}
    {test increment : Option Expr} {start body : Stmt} {written : Bool} (startShelters : Shelters start)
    (bodyShelters : Shelters body) :
    Shelters (.forLoop afterKeyword afterOpen (some start) afterStart test afterCondition increment afterIncrement afterClose body written) := by
  intro sheltered _
  simp only [Stmt.sheltered, Bool.and_eq_true, Bool.not_eq_true'] at sheltered
  obtain ⟨⟨⟨⟨⟨⟨⟨⟨⟨⟨⟨⟨keywordSheltered, openSheltered⟩, firstSheltered⟩, firstStatement⟩, startSheltered⟩,
    testSheltered⟩, conditionSheltered⟩, incrementSheltered⟩, afterIncrementSheltered⟩, closeSheltered⟩,
    bodySheltered⟩, bodyStatement⟩, ready⟩ := sheltered
  refine safe_ended (by rw [stmt]) ?_ ready
  refine (safe_openFor keywordSheltered openSheltered).bind fun moved => ?_
  refine (startShelters firstSheltered firstStatement).bind fun _ => safe_ensureSpace.bind fun _ => ?_
  refine (safe_forHeader startSheltered testSheltered conditionSheltered incrementSheltered
    afterIncrementSheltered closeSheltered moved).bind fun _ => ?_
  exact (bodyShelters bodySheltered bodyStatement).bind fun _ => safe_semicolonIf written

theorem switch {afterKeyword afterOpen : Trivia} {subject : Expr} {cases : List (Case Stmt)} {written : Bool}
    (casesShelter : SheltersCases cases) :
    Shelters (.switch afterKeyword subject afterOpen cases written) := by
  intro sheltered _
  simp only [Stmt.sheltered, Bool.and_eq_true] at sheltered
  obtain ⟨⟨⟨keywordSheltered, subjectSheltered⟩, openSheltered⟩, casesSheltered⟩ := sheltered
  refine safe_ended (by rw [stmt]) ?_ (by rw [Stmt.leaves, endsOpen_braced, Bool.or_true])
  refine (safe_openSwitch keywordSheltered subjectSheltered openSheltered).bind fun _ => ?_
  exact (casesShelter casesSheltered).bind fun _ => safe_closeSwitch written

theorem returning {value : Option Expr} {written : Bool} : Shelters (.returning value written) := by
  intro sheltered _
  rw [stmt]
  exact safe_jump rfl sheltered written _

theorem breaking {written : Bool} : Shelters (.breaking written) := by
  intro _ _
  rw [stmt]
  exact @safe_jump _ rfl none rfl written _

theorem exiting {written : Bool} : Shelters (.exiting written) := by
  intro _ _
  rw [stmt]
  exact @safe_jump _ rfl none rfl written _

theorem remark {form : RemarkForm} {token : Token} : Shelters (.remark form token) := by
  intro _ isStatement
  cases isStatement

theorem define {afterKeyword : Trivia} {name : Expr} {body : List Stmt} (bodyShelters : SheltersAll body) :
    Shelters (.define afterKeyword name body) := by
  intro sheltered _
  simp only [Stmt.sheltered, Bool.and_eq_true] at sheltered
  obtain ⟨⟨⟨keywordSheltered, nameSheltered⟩, bodySheltered⟩, ends⟩ := sheltered
  refine safe_ended (by rw [stmt]) ?_ ends
  refine (safe_openDefine keywordSheltered nameSheltered).bind fun _ page free => ?_
  exact (bodyShelters bodySheltered (.of_free free)).2 rfl

theorem nil : SheltersAll [] :=
  fun _ entry => entry.done

theorem cons {first : Stmt} {others : List Stmt} (here : Shelters first) (later : SheltersAll others) :
    SheltersAll (first :: others) := by
  intro outermost fresh openEnd page sheltered entry
  simp only [Stmt.listSheltered, Bool.and_eq_true] at sheltered
  rw [stmts]
  refine later sheltered.2 (entry.step (here sheltered.1.1) ?_)
  rintro form token rfl
  exact sheltered.1.2

theorem blockNil : SheltersBlock [] :=
  fun _ _ _ _ _ entry => entry.done.2 rfl

theorem blockCons {first : Stmt} {others : List Stmt} (here : Shelters first) (later : SheltersBlock others) :
    SheltersBlock (first :: others) := by
  intro onLines fresh openEnd page sheltered entry
  simp only [Stmt.listSheltered, Bool.and_eq_true] at sheltered
  rw [blockStmts]
  have next : Entry false first.leavesFresh (endsOpen isOwn first.leaves) others
      (after (stmt first) page) := by
    refine entry.step (here sheltered.1.1) ?_
    rintro form token rfl
    exact sheltered.1.2
  refine later onLines sheltered.2 (next.closeBlockStatement fun written => ?_)
  refine entry.free (here sheltered.1.1 ?_)
  cases first with
  | remark form token => cases written
  | _ => rfl

theorem casesNil : SheltersCases [] :=
  fun _ => .pure

theorem casesCons {label : Option Expr} {afterKeyword afterColon : Trivia} {body : List Stmt}
    {others : List (Case Stmt)} (here : SheltersAll body) (later : SheltersCases others) :
    SheltersCases (⟨label, afterKeyword, afterColon, body⟩ :: others) := by
  intro sheltered
  simp only [Stmt.casesSheltered, Bool.and_eq_true] at sheltered
  obtain ⟨⟨⟨⟨labelSheltered, keywordSheltered⟩, colonSheltered⟩, bodySheltered⟩, othersSheltered⟩ := sheltered
  rw [branches]
  refine (safe_openBranch labelSheltered keywordSheltered colonSheltered).bind fun saved => ?_
  refine Keeps.bind (fun page free => (here bodySheltered (.of_free free)).2 rfl) fun _ => ?_
  exact (safe_closeBranch saved).bind fun _ => later othersSheltered

end Shelters

mutual

theorem shelters : (statement : Stmt) → Shelters statement
  | .declaration .. => .declaration
  | .enumeration .. => .enumeration
  | .expression .. => .expression
  | .block _ body _ => .block (sheltersBlock body)
  | .conditional _ _ whenTrue _ _ none _ => .conditionalAlone (shelters whenTrue)
  | .conditional _ _ whenTrue _ _ (some whenFalse) _ => .conditional (shelters whenTrue) (shelters whenFalse)
  | .loop _ _ _ body _ => .loop (shelters body)
  | .doUntil _ body _ _ _ => .doUntil (shelters body)
  | .forLoop _ _ none _ _ _ _ _ _ body _ => .forLoopBare (shelters body)
  | .forLoop _ _ (some start) _ _ _ _ _ _ body _ => .forLoop (shelters start) (shelters body)
  | .switch _ _ _ cases _ => .switch (sheltersCases cases)
  | .returning .. => .returning
  | .breaking _ => .breaking
  | .exiting _ => .exiting
  | .remark .. => .remark
  | .define _ _ body => .define (sheltersAll body)

theorem sheltersAll : (statements : List Stmt) → SheltersAll statements
  | [] => Shelters.nil
  | first :: others => Shelters.cons (shelters first) (sheltersAll others)

theorem sheltersBlock : (statements : List Stmt) → SheltersBlock statements
  | [] => Shelters.blockNil
  | first :: others => Shelters.blockCons (shelters first) (sheltersBlock others)

theorem sheltersCases : (cases : List (Case Stmt)) → SheltersCases cases
  | [] => Shelters.casesNil
  | ⟨_, _, _, body⟩ :: others => Shelters.casesCons (sheltersAll body) (sheltersCases others)

end

end GmlLayout.Print
