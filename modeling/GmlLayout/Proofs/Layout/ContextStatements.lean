import GmlLayout.Proofs.Layout.Context

/-!
Statements and their surroundings. A declaration that went on to a new line leaves a frame open, and the end of
a statement uses up an exemption. But no frame that a statement finds is closed, the chain and the `for` headers
are as they were, and the request that an `if` makes to its condition does not outlive the condition.
-/

namespace GmlLayout.Print

open Page

variable {α β : Type}

theorem groups_grouping (afterOpen : Trivia) (inner : List Expr) (afterClose : Trivia) (page : Page) :
    (after (Print.expr (.grouping afterOpen inner afterClose)) page).groupRequests <:+
      page.groupRequests.tail := by
  have lasting : ∀ requests, Lasting fun later => later.groupRequests <:+ requests :=
    fun requests _ _ first second => second.groups.trans first
  have answered : ∀ requests, Brings (fun later => later.groupRequests <:+ requests)
      (modifyGet takeGroupRequest) fun _ later => later.groupRequests <:+ requests.tail := by
    intro requests later left
    show later.takeGroupRequest.2.groupRequests <:+ requests.tail
    rw [later.groupRequests_takeGroupRequest]
    obtain ⟨used, rfl⟩ := left
    cases used with
    | nil => exact List.suffix_rfl
    | cons request used => exact (List.tail_suffix _).trans (List.suffix_append used _)
  have closed : ∀ moved, Brings (fun later => later.groupRequests <:+ page.groupRequests)
      (closeGrouping moved afterClose) fun _ later => later.groupRequests <:+ page.groupRequests.tail := by
    intro moved
    unfold closeGrouping
    refine (stays_dropSpace.brings (lasting _)).bind fun _ => ?_
    refine .optional _ (fun _ => stays_stepBack.brings (lasting _)) (fun _ _ => id) ?_
    refine ((stays_write _ true).brings (lasting _)).bind fun _ => (answered _).bind fun request => ?_
    exact (stays_slot afterClose _).brings (lasting _)
  have whole : Brings (fun later => later.groupRequests <:+ page.groupRequests)
      (Print.expr (.grouping afterOpen inner afterClose))
      fun _ later => later.groupRequests <:+ page.groupRequests.tail := by
    rw [Print.expr]
    refine ((stays_write _ _).brings (lasting _)).bind fun _ => ?_
    refine ((stays_trivia afterOpen _).brings (lasting _)).bind fun moved => ?_
    refine ((stays_exprs inner).brings (lasting _)).bind fun _ => (closed moved).bind fun _ => ?_
    exact (stays_closeExpression []).brings (lasting _)
  exact whole page List.suffix_rfl

theorem nests_requested {condition : Expr} (grouped : condition.isGrouping = true) (request : GroupRequest)
    (page : Page) : page.Nests (after (Print.expr condition) (page.requestGroup request)) := by
  have nests := stays_expr condition (page.requestGroup request)
  refine ⟨nests.frames, nests.chain, nests.headers, nests.blocks, ?_, nests.exemptions⟩
  cases condition with
  | grouping afterOpen inner afterClose => exact groups_grouping afterOpen inner afterClose _
  | _ => cases grouped

/-- The layout closes no frame that it finds, and neither opens nor closes a chain or a header. -/
def Leaves (action : Print α) : Prop :=
  ∀ page : Page, page.Precedes (after action page)

namespace Leaves

variable {action : Print α}

theorem brings (leaves : Leaves action) (base : Page) : Brings base.Precedes action fun _ => base.Precedes :=
  fun page here => here.trans (leaves page)

theorem of_brings (brings : ∀ base : Page, Brings base.Precedes action fun _ => base.Precedes) :
    Leaves action :=
  fun page => brings page page (.refl page)

theorem bind {next : α → Print β} (first : Leaves action) (second : ∀ value, Leaves (next value)) :
    Leaves (action >>= next) :=
  fun page => (first page).trans (second _ _)

theorem pure {value : α} : Leaves (Pure.pure value) :=
  fun page => .refl page

theorem ite {test : Prop} [Decidable test] {other : Print α} (yes : Leaves action) (no : Leaves other) :
    Leaves (if test then action else other) := by
  split
  · exact yes
  · exact no

theorem optional {test : Prop} [Decidable test] {step : Print Unit} {rest : Unit → Print α}
    (first : Leaves step) (further : Leaves (rest ())) :
    Leaves (if test then step >>= rest else rest ()) :=
  ite (first.bind fun _ => further) further

theorem read {next : Page → Print α} (each : ∀ page, Leaves (next page)) :
    Leaves (MonadState.get >>= next) :=
  fun page => each page page

end Leaves

theorem Stays.leaves {action : Print α} (stays : Stays action) : Leaves action :=
  fun page => (stays page).precedes

theorem stays_semicolonIf (written : Bool) : Stays (semicolonIf written) :=
  .ite (fun page => page.nests_writeSemicolon) .pure

theorem stays_semicolonAndNewline (written : Bool) (move : Move) :
    Stays (semicolonAndNewline written move) := by
  have semicolon : Stays (modify writeSemicolon) := fun page => page.nests_writeSemicolon
  unfold semicolonAndNewline
  exact semicolon.bind fun _ => .ite .pure ((stays_newline move).bind fun _ => .pure)

theorem leaves_terminate (closed : Bool) : Leaves (terminate closed) := by
  have taken : Leaves takeExemption := fun page => ⟨List.suffix_rfl, rfl, rfl, List.suffix_rfl⟩
  have dropped : Stays (modifyGet Page.dropBlanks) := fun _ => .of_same rfl rfl rfl rfl rfl rfl
  have broken : ∀ count, Stays (modify fun page => page.newlines count) :=
    fun count page => page.nests_newlines count
  have placed : ∀ count, Stays (modify fun page => page.placeSemicolon.newlines count) :=
    fun count page => page.nests_placeSemicolon.trans (nests_newlines _ count)
  unfold terminate
  refine taken.bind fun exempt => .ite (Stays.leaves ?_) .pure
  refine dropped.bind fun breaks => .read fun page => ?_
  refine .ite ?_ .pure
  split
  · exact broken _
  · exact broken _
  · exact placed _

theorem stays_repeatedKeyword (declared : Variable) (indented : Bool) :
    Stays (repeatedKeyword declared indented) := by
  unfold repeatedKeyword
  cases declared.keyword with
  | none => exact .pure
  | some keyword =>
    exact (stays_writeToken keyword true).bind fun _ => (stays_trivia _ _).bind fun _ => .pure

theorem leaves_variableTrivia (trailing : Trivia) (indented : Bool) :
    Leaves (variableTrivia trailing indented) := by
  have left : ∀ (base page : Page), InFrame base.Precedes page → base.Precedes page := by
    rintro base page ⟨before, here, nests⟩
    have opened : before.Precedes before.openFrame := ⟨List.suffix_cons _ _, rfl, rfl, List.suffix_rfl⟩
    exact (here.trans opened).trans nests.precedes
  unfold variableTrivia
  refine .ite .pure (.of_brings fun base => brings_openFrame_inFrame.bind fun _ => ?_)
  refine ((stays_trivia trailing _).brings (lasting_inFrame _)).bind fun moved => ?_
  refine .ite (fun _ => .pure (left base)) fun _ => ?_
  exact (brings_closeFrame_inFrame (lasting_precedes base)).bind fun _ => .pure fun _ => id

theorem leaves_variableList (endDelimited : Bool) (items : List (Item Variable)) (indented : Bool) :
    Leaves (variableList endDelimited items indented) := by
  have placed : Leaves (modify placeSemicolon) := fun page => page.nests_placeSemicolon.precedes
  induction items generalizing indented with
  | nil => exact .pure
  | cons item others ih =>
    obtain ⟨declared, trailing⟩ := item
    unfold variableList
    refine (stays_repeatedKeyword declared indented).leaves.bind fun indented => .of_brings fun base => ?_
    have framed := lasting_inFrame base.Precedes
    refine brings_openFrame_inFrame.bind fun _ => ((stays_expr declared.target).brings framed).bind fun _ => ?_
    refine (stays_dropSpace.brings framed).bind fun _ => ?_
    refine (brings_closeFrame_inFrame (lasting_precedes base)).bind fun _ => ?_
    have rest : ∀ openEnd, Leaves (do
        let indented ← variableTrivia trailing indented
        if others.isEmpty then
          return (indented, openEnd)
        else
          variableList endDelimited others indented) :=
      fun openEnd => (leaves_variableTrivia trailing indented).bind fun indented => .ite .pure (ih indented)
    refine Leaves.brings (.read fun page => ?_) base
    exact .ite ((stays_write _ true).leaves.bind fun _ => rest _) (.optional placed (rest _))

theorem leaves_declaration (keyword : Token) (afterKeyword : Trivia) (declared : Series Variable)
    (written : Bool) : Leaves (declaration keyword afterKeyword declared written) := by
  have broken : Leaves (do newline .stay; setLineEnded true) :=
    (stays_newline .stay).leaves.bind fun _ => (stays_setLineEnded true).leaves
  unfold declaration
  refine (stays_writeToken keyword true).leaves.bind fun _ => ?_
  refine (stays_trivia afterKeyword _).leaves.bind fun moved => ?_
  refine (leaves_variableList declared.endDelimited declared.items moved).bind fun listed => ?_
  refine .optional (stays_semicolonIf written).leaves (.optional stays_stepBack.leaves ?_)
  exact .read fun page => .ite broken .pure

theorem stays_enumerationMembers (afterKeyword : Trivia) (name : Expr) (afterOpen : Trivia)
    (members : Series Expr) : Stays (enumerationMembers afterKeyword name afterOpen members) := by
  unfold enumerationMembers
  refine (stays_write _ true).bind fun _ => (stays_slot afterKeyword _).bind fun _ => ?_
  refine (stays_expr name).bind fun _ => (stays_write _ true).bind fun _ => ?_
  refine (stays_trivia afterOpen _).bind fun moved => .optional (stays_newline .right) ?_
  exact stays_dropSpace.bind fun _ => stays_entries _ _ _ members.items

theorem stays_closeEnumeration (written : Bool) : Stays (closeEnumeration written) := by
  have closed : Stays (modify fun page => (page.setIndentation .left).dropLine.write "\x7d") :=
    fun _ => .of_same rfl rfl rfl rfl rfl rfl
  exact closed.bind fun _ => stays_semicolonIf written

theorem stays_remark (form : RemarkForm) (token : Token) : Stays (remark form token) := by
  unfold remark
  refine .ite (.read fun page => .ite ?_ (stays_writeToken token true)) ?_
  · exact stays_dropBlanks.bind fun _ => stays_ensureSpace.bind fun _ =>
      (stays_writeToken token false).bind fun _ => stays_newline .stay
  · exact (stays_writeToken token false).bind fun _ => stays_dropSpace

theorem leaves_takeBlockRequest : Leaves (modifyGet takeBlockRequest) := by
  intro page
  show page.Precedes page.takeBlockRequest.2
  unfold takeBlockRequest
  split <;> exact ⟨List.suffix_rfl, rfl, rfl, List.suffix_rfl⟩

theorem leaves_openBlock (afterOpen : Trivia) (body : List Stmt) : Leaves (openBlock afterOpen body) := by
  unfold openBlock
  refine .read fun page => .optional stays_ensureSpace.leaves ?_
  refine leaves_takeBlockRequest.bind fun request => (stays_write _ _).leaves.bind fun _ => ?_
  refine (stays_trivia afterOpen _).leaves.bind fun moved => .optional (stays_newline .right).leaves ?_
  exact .optional stays_ensureSpace.leaves (.optional stays_exempt.leaves .pure)

theorem stays_closeBlockStatement (onLines written : Bool) : Stays (closeBlockStatement onLines written) := by
  have broken : Stays (do newline .stay; setLineEnded true) :=
    (stays_newline .stay).bind fun _ => stays_setLineEnded true
  unfold closeBlockStatement
  exact .read fun page => .ite broken .pure

theorem stays_closeBlock (request : BlockRequest) (onLines written : Bool) :
    Stays (closeBlock request onLines written) := by
  have ended : Stays (modify fun page => page.ensureNewline .stay) := by
    intro page
    show page.Nests (page.ensureNewline .stay)
    unfold ensureNewline
    split
    · exact .refl page
    · exact page.nests_newline .stay
  have closed : Stays (do
      write "\x7d"
      semicolonIf written
      if !request.noNewlineAfter then
        modify fun page => page.ensureNewline .stay
      setLineEnded true) :=
    (stays_write _ _).bind fun _ => (stays_semicolonIf written).bind fun _ =>
      .optional ended (stays_setLineEnded true)
  unfold closeBlock
  refine .ite (stays_dropBlanks.bind fun _ => (stays_newline .left).bind fun _ => closed) ?_
  exact stays_dropSpace.bind fun _ => .read fun page => .optional stays_ensureSpace closed

theorem leaves_openConditional (afterKeyword : Trivia) (condition : Expr) (hasBlock : Bool) :
    Leaves (openConditional afterKeyword condition hasBlock) := by
  have ending : ∀ before : Int, Stays (do
      Print.expr condition
      return !hasBlock && (← get).indentation != before) :=
    fun before => (stays_expr condition).bind fun _ => .read fun page => .pure
  unfold openConditional
  refine (stays_write _ true).leaves.bind fun _ => (stays_slot afterKeyword _).leaves.bind fun _ => ?_
  refine .optional (stays_requestBlock _).leaves (.read fun page => ?_)
  by_cases asked : (!hasBlock && condition.isGrouping) = true
  · rw [if_pos asked]
    have grouped : condition.isGrouping = true := (Bool.and_eq_true_iff.mp asked).2
    exact fun page => (nests_requested grouped _ page).precedes
  · rw [if_neg asked]
    exact (ending _).leaves

theorem stays_betweenBranches (between : Trivia) (indented : Bool) :
    Stays (betweenBranches between indented) := by
  unfold betweenBranches
  exact (stays_trivia between _).bind fun moved => .ite (stays_newline _) .pure

theorem stays_openElse (between : Trivia) (indented : Bool) (afterElse : Trivia) (continues : Bool) :
    Stays (openElse between indented afterElse continues) := by
  unfold openElse
  refine (stays_betweenBranches between indented).bind fun _ => .optional stays_dropBlanks ?_
  refine stays_ensureSpace.bind fun _ => (stays_write _ true).bind fun _ => .ite ?_ (stays_trivia afterElse _)
  exact (stays_slot afterElse _).bind fun _ => .pure

theorem stays_closeElse (continues moved : Bool) : Stays (closeElse continues moved) := by
  unfold closeElse
  exact .optional (stays_setIndentation .left) (.ite (stays_setLineEnded true) .pure)

theorem stays_openLoop (keyword : Token) (afterKeyword : Trivia) (condition : Expr) :
    Stays (openLoop keyword afterKeyword condition) :=
  (stays_writeToken keyword true).bind fun _ => (stays_slot afterKeyword _).bind fun _ => stays_expr condition

theorem stays_openDo (afterKeyword : Trivia) : Stays (openDo afterKeyword) :=
  (stays_write _ true).bind fun _ => (stays_slot afterKeyword _).bind fun _ => stays_requestBlock _

theorem stays_closeDo (between : Trivia) (condition : Expr) (written : Bool) :
    Stays (closeDo between condition written) := by
  have closed : Stays (do
      write "until" true
      Print.expr condition
      dropSpace
      let _ ← semicolonAndNewline written .stay) :=
    (stays_write _ true).bind fun _ => (stays_expr condition).bind fun _ => stays_dropSpace.bind fun _ =>
      (stays_semicolonAndNewline written .stay).bind fun _ => .pure
  unfold closeDo
  refine (stays_slot between _).bind fun _ => stays_dropBlanks.bind fun _ => .read fun page => ?_
  exact .ite (stays_ensureSpace.bind fun _ => closed) ((stays_newline .stay).bind fun _ => closed)

theorem brings_openFor (afterKeyword afterOpen : Trivia) (base : Page) :
    Brings base.Precedes (openFor afterKeyword afterOpen) fun _ => base.enterFor.Precedes := by
  have entered : Brings base.Precedes (modify enterFor) fun _ => base.enterFor.Precedes :=
    fun page here => ⟨here.frames, here.chain, congrArg (· + 1) here.headers, here.groups⟩
  unfold openFor
  refine ((stays_write _ true).leaves.brings base).bind fun _ => ?_
  refine ((stays_slot afterKeyword _).leaves.brings base).bind fun _ => ?_
  refine ((stays_write _ _).leaves.brings base).bind fun _ => entered.bind fun _ => ?_
  exact (stays_trivia afterOpen _).leaves.brings base.enterFor

theorem stays_exprOr {missing : Print Unit} (stays : Stays missing) : ∀ value, Stays (exprOr missing value)
  | none => stays
  | some value => stays_expr value

theorem brings_forHeader (afterStart : Trivia) (condition : Option Expr) (afterCondition : Trivia)
    (increment : Option Expr) (afterIncrement : Trivia) (moved : Bool) (afterClose : Trivia) (base : Page) :
    Brings base.enterFor.Precedes
      (forHeader afterStart condition afterCondition increment afterIncrement moved afterClose)
      fun _ => base.Precedes := by
  have left : Brings base.enterFor.Precedes (modify leaveFor) fun _ => base.Precedes :=
    fun page here => ⟨here.frames, here.chain, congrArg (· - 1) here.headers, here.groups⟩
  have inside : ∀ {α : Type} {action : Print α}, Stays action →
      Brings base.enterFor.Precedes action fun _ => base.enterFor.Precedes :=
    fun stays => stays.leaves.brings base.enterFor
  rw [forHeader_eq]
  refine (inside (stays_slot afterStart _)).bind fun _ => ?_
  refine (inside (stays_exprOr .pure condition)).bind fun _ => (inside stays_dropSpace).bind fun _ => ?_
  refine (inside (stays_write _ true)).bind fun _ => (inside (stays_slot afterCondition _)).bind fun _ => ?_
  refine (inside (stays_exprOr stays_dropSpace increment)).bind fun _ => ?_
  unfold closeFor
  refine (inside (stays_trivia afterIncrement _)).bind fun broken => ?_
  refine .optional _ (fun _ => inside stays_dropSpace) (fun _ _ => id) ?_
  refine .optional _ (fun _ => inside (stays_newline .left)) (fun _ _ => id) ?_
  refine (inside (stays_write _ true)).bind fun _ => left.bind fun _ => ?_
  exact (stays_slot afterClose _).leaves.brings base

theorem stays_openSwitch (afterKeyword : Trivia) (subject : Expr) (afterOpen : Trivia) :
    Stays (openSwitch afterKeyword subject afterOpen) := by
  unfold openSwitch
  refine (stays_write _ true).bind fun _ => (stays_slot afterKeyword _).bind fun _ => ?_
  refine (stays_expr subject).bind fun _ => stays_ensureSpace.bind fun _ => ?_
  refine (stays_write _ true).bind fun _ => ?_
  exact (stays_trivia afterOpen _).bind fun moved => .ite (stays_newline .right) .pure

theorem stays_openBranch (label : Option Expr) (afterKeyword afterColon : Trivia) :
    Stays (openBranch label afterKeyword afterColon) := by
  have colon : Stays (do
      dropSpace
      write ":" true
      let saved := (← get).indentation
      let moved ← trivia afterColon { move := .right }
      if !moved then
        newline .right
      return saved) :=
    stays_dropSpace.bind fun _ => (stays_write _ true).bind fun _ => .read fun page =>
      (stays_trivia afterColon _).bind fun moved => .optional (stays_newline .right) .pure
  unfold openBranch
  cases label with
  | none => exact (stays_write _ true).bind fun _ => colon
  | some label =>
    exact (stays_write _ true).bind fun _ => (stays_slot afterKeyword _).bind fun _ =>
      (stays_expr label).bind fun _ => colon

theorem stays_closeBranch (saved : Int) : Stays (closeBranch saved) :=
  fun _ => .of_same rfl rfl rfl rfl rfl rfl

theorem stays_closeSwitch (written : Bool) : Stays (closeSwitch written) :=
  stays_dropBlanks.bind fun _ => (stays_newline .left).bind fun _ => (stays_write _ _).bind fun _ =>
    stays_semicolonIf written

theorem stays_jump (word : String) (value : Option Expr) (written : Bool) :
    Stays (jump word value written) := by
  have closed : Stays (do let _ ← semicolonAndNewline written .stay) :=
    (stays_semicolonAndNewline written .stay).bind fun _ => .pure
  unfold jump
  cases value with
  | none => exact (stays_write _ _).bind fun _ => closed
  | some value =>
    exact (stays_write _ _).bind fun _ => (stays_write _ _).bind fun _ =>
      (stays_expr value).bind fun _ => closed

theorem stays_openDefine (afterKeyword : Trivia) (name : Expr) : Stays (openDefine afterKeyword name) :=
  (stays_write _ true).bind fun _ => (stays_slot afterKeyword _).bind fun _ => (stays_expr name).bind fun _ =>
    stays_dropSpace.bind fun _ => stays_newline .stay

theorem leaves_ended {closed : Bool} {written : Print Unit} (leaves : Leaves written) :
    Leaves (ended closed written) :=
  leaves.bind fun _ => leaves_terminate closed

mutual

/-- A statement closes no frame that it finds, and leaves no request to a grouping behind. -/
theorem leaves_stmt : ∀ statement : Stmt, Leaves (Print.stmt statement)
  | .declaration keyword afterKeyword declared written => by
    rw [Print.stmt]
    exact leaves_ended (leaves_declaration keyword afterKeyword declared written)
  | .enumeration afterKeyword name afterOpen members written => by
    rw [Print.stmt]
    refine leaves_ended ((stays_enumerationMembers afterKeyword name afterOpen members).bind fun _ => ?_).leaves
    exact stays_closeEnumeration written
  | .expression value written => by
    rw [Print.stmt]
    exact leaves_ended ((stays_expr value).bind fun _ => stays_semicolonIf written).leaves
  | .block afterOpen body written => by
    rw [Print.stmt]
    refine leaves_ended ((leaves_openBlock afterOpen body).bind fun opened => ?_)
    exact (leaves_blockStmts opened.2 body).bind fun _ => (stays_closeBlock opened.1 opened.2 written).leaves
  | .conditional afterKeyword test whenTrue between afterElse none written => by
    rw [Print.stmt]
    refine leaves_ended ((leaves_openConditional afterKeyword test whenTrue.isBlock).bind fun indented => ?_)
    refine (leaves_stmt whenTrue).bind fun _ => (stays_betweenBranches between indented).leaves.bind fun _ => ?_
    exact (stays_semicolonIf written).leaves
  | .conditional afterKeyword test whenTrue between afterElse (some whenFalse) written => by
    rw [Print.stmt]
    refine leaves_ended ((leaves_openConditional afterKeyword test whenTrue.isBlock).bind fun indented => ?_)
    refine (leaves_stmt whenTrue).bind fun _ => ?_
    refine (stays_openElse between indented afterElse _).leaves.bind fun moved => ?_
    refine (leaves_stmt whenFalse).bind fun _ => (stays_closeElse _ moved).leaves.bind fun _ => ?_
    exact (stays_semicolonIf written).leaves
  | .loop keyword afterKeyword test body written => by
    rw [Print.stmt]
    refine leaves_ended ((stays_openLoop keyword afterKeyword test).leaves.bind fun _ => ?_)
    exact (leaves_stmt body).bind fun _ => (stays_semicolonIf written).leaves
  | .doUntil afterKeyword body between test written => by
    rw [Print.stmt]
    refine leaves_ended ((stays_openDo afterKeyword).leaves.bind fun _ => ?_)
    exact (leaves_stmt body).bind fun _ => (stays_closeDo between test written).leaves
  | .forLoop afterKeyword afterOpen none afterStart test afterCondition increment afterIncrement afterClose
      body written => by
    rw [Print.stmt]
    refine leaves_ended (.of_brings fun base => ?_)
    refine (brings_openFor afterKeyword afterOpen base).bind fun moved => ?_
    refine ((stays_write _ true).leaves.brings base.enterFor).bind fun _ => ?_
    refine (brings_forHeader afterStart test afterCondition increment afterIncrement moved afterClose
      base).bind fun _ => ?_
    exact ((leaves_stmt body).brings base).bind fun _ => (stays_semicolonIf written).leaves.brings base
  | .forLoop afterKeyword afterOpen (some start) afterStart test afterCondition increment afterIncrement
      afterClose body written => by
    rw [Print.stmt]
    refine leaves_ended (.of_brings fun base => ?_)
    refine (brings_openFor afterKeyword afterOpen base).bind fun moved => ?_
    refine ((leaves_stmt start).brings base.enterFor).bind fun _ => ?_
    refine (stays_ensureSpace.leaves.brings base.enterFor).bind fun _ => ?_
    refine (brings_forHeader afterStart test afterCondition increment afterIncrement moved afterClose
      base).bind fun _ => ?_
    exact ((leaves_stmt body).brings base).bind fun _ => (stays_semicolonIf written).leaves.brings base
  | .switch afterKeyword subject afterOpen cases written => by
    rw [Print.stmt]
    refine leaves_ended ((stays_openSwitch afterKeyword subject afterOpen).leaves.bind fun _ => ?_)
    exact (leaves_branches cases).bind fun _ => (stays_closeSwitch written).leaves
  | .returning value written => by
    rw [Print.stmt]
    exact leaves_ended (stays_jump "return" value written).leaves
  | .breaking written => by
    rw [Print.stmt]
    exact leaves_ended (stays_jump "break" none written).leaves
  | .exiting written => by
    rw [Print.stmt]
    exact leaves_ended (stays_jump "exit" none written).leaves
  | .remark form token => by
    rw [Print.stmt]
    exact leaves_ended (stays_remark form token).leaves
  | .define afterKeyword name body => by
    rw [Print.stmt]
    exact leaves_ended ((stays_openDefine afterKeyword name).leaves.bind fun _ => leaves_stmts body)

theorem leaves_stmts : ∀ statements : List Stmt, Leaves (Print.stmts statements)
  | [] => .pure
  | first :: others => (leaves_stmt first).bind fun _ => leaves_stmts others

theorem leaves_blockStmts (onLines : Bool) : ∀ statements : List Stmt, Leaves (blockStmts onLines statements)
  | [] => .pure
  | first :: others =>
    (leaves_stmt first).bind fun _ => (stays_closeBlockStatement onLines _).leaves.bind fun _ =>
      leaves_blockStmts onLines others

theorem leaves_branches : ∀ cases : List (Case Stmt), Leaves (branches cases)
  | [] => .pure
  | ⟨label, afterKeyword, afterColon, body⟩ :: others => by
    rw [branches]
    refine (stays_openBranch label afterKeyword afterColon).leaves.bind fun saved => ?_
    refine (leaves_stmts body).bind fun _ => (stays_closeBranch saved).leaves.bind fun _ => ?_
    exact leaves_branches others

end

/-- On every page, an expression keeps to its surroundings, and so does a statement but for the frames that it
leaves open. -/
theorem context_respected :
    (∀ (expr : Expr) (page : Page), page.Nests (after (Print.expr expr) page)) ∧
      ∀ (statement : Stmt) (page : Page), page.Precedes (after (Print.stmt statement) page) :=
  ⟨stays_expr, leaves_stmt⟩

end GmlLayout.Print
