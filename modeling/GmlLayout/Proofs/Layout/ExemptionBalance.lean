import GmlLayout.Proofs.Grammar.Completeness
import GmlLayout.Proofs.Layout.Exemptions
import GmlLayout.Proofs.Layout.Keeps

/-!
The balance of exemptions. What a statement claims is added to the exemptions at hand, and each end of a
statement, an inner one or its own, uses up one at most. How many are left is a function of how many
there were and of the tree alone, so whether a statement hands one on to the next can be read off its
tree.
-/

namespace GmlLayout

def Expr.grants? : Option Expr → Nat
  | none => 0
  | some expr => expr.grants

namespace Stmt

mutual

/-- How many exemptions are left behind the statement if there are `count` in front of it. -/
def settled (count : Nat) : Stmt → Nat
  | .declaration _ _ declared _ => count + variablesGrants declared.items - 1
  | .enumeration _ name _ members _ =>
    count + name.grants + Expr.entriesGrants members.items - 1
  | .expression expr _ => count + expr.grants - 1
  | .block _ body _ => listSettled (count + (if body.length = 1 then 1 else 0)) body - 1
  | .conditional _ condition whenTrue between _ none _ =>
    settled (count + condition.grants) whenTrue + remarks between - 1
  | .conditional _ condition whenTrue between _ (some whenFalse) _ =>
    settled (settled (count + condition.grants) whenTrue + remarks between) whenFalse - 1
  | .loop _ _ condition body _ => settled (count + condition.grants) body - 1
  | .doUntil _ body _ condition _ => settled count body + condition.grants - 1
  | .forLoop _ _ none _ condition _ increment _ _ body _ =>
    settled (count + Expr.grants? condition + Expr.grants? increment) body - 1
  | .forLoop _ _ (some start) _ condition _ increment _ _ body _ =>
    settled (settled count start + Expr.grants? condition + Expr.grants? increment) body - 1
  | .switch _ subject _ cases _ => casesSettled (count + subject.grants) cases - 1
  | .returning value _ => count + Expr.grants? value - 1
  | .breaking _ => count - 1
  | .exiting _ => count - 1
  | .remark _ _ => count - 1
  | .define _ name body => listSettled (count + name.grants) body - 1

def listSettled (count : Nat) : List Stmt → Nat
  | [] => count
  | first :: others => listSettled (settled count first) others

def casesSettled (count : Nat) : List (Case Stmt) → Nat
  | [] => count
  | ⟨label, _, _, body⟩ :: others =>
    casesSettled (listSettled (count + Expr.grants? label) body) others

end

end Stmt

namespace Page

variable (page : Page)

@[simp] theorem exemptions_newlines (count : Nat) : (page.newlines count).exemptions = page.exemptions := by
  induction count generalizing page with
  | zero => rfl
  | succ count ih => rw [newlines, ih, exemptions_newline]

@[simp] theorem exemptions_ensureNewline (move : Move) :
    (page.ensureNewline move).exemptions = page.exemptions := by
  unfold ensureNewline
  split
  · rfl
  · exact page.exemptions_newline move

@[simp] theorem exemptions_takeBlockRequest :
    page.takeBlockRequest.2.exemptions = page.exemptions := by
  unfold takeBlockRequest
  split <;> rfl

end Page

namespace Print

open Page

def Settles {α : Type} (before later : Nat) (action : Print α) : Prop :=
  ∀ page, page.exemptions = before → (after action page).exemptions = later

namespace Settles

variable {α β : Type} {before between later : Nat} {action : Print α}

theorem bind {next : α → Print β} (front : Settles before between action)
    (back : ∀ value, Settles between later (next value)) : Settles before later (action >>= next) :=
  fun page here => back _ _ (front page here)

end Settles

theorem Grants.settles {α : Type} {granted : Nat} {action : Print α} (grants : Grants granted action)
    (count : Nat) : Settles count (count + granted) action := by
  intro page here
  rw [grants, here]

theorem grants_semicolonAndNewline (written : Bool) (move : Move) :
    Grants 0 (semicolonAndNewline written move) := by
  have semicolon : Grants 0 (modify Page.writeSemicolon) :=
    fun page => page.dropSpace.exemptions_write ";" true
  unfold semicolonAndNewline
  refine semicolon.after fun _ => .ite (fun _ => .pure) fun _ => ?_
  exact (grants_newline move).after fun _ => .pure

theorem grants_exprOr {missing : Print Unit} (unclaimed : Grants 0 missing) (value : Option Expr) :
    Grants (Expr.grants? value) (exprOr missing value) := by
  cases value with
  | none => exact unclaimed
  | some value => exact grants_expr value

theorem settles_terminate (closed : Bool) (count : Nat) : Settles count (count - 1) (terminate closed) := by
  intro page here
  rw [← here]
  unfold terminate
  rw [after_bind]
  have taken : (after takeExemption page).exemptions = page.exemptions - 1 := rfl
  rw [← taken]
  generalize after takeExemption page = page
  have dropped : Grants 0 (modifyGet Page.dropBlanks) := fun _ => rfl
  refine Grants.ite (fun _ => ?_) (fun _ => .pure) page
  refine dropped.after fun breaks => .read fun page => .ite (fun _ => ?_) fun _ => .pure
  split
  · exact fun page => page.exemptions_newlines _
  · exact fun page => page.exemptions_newlines _
  · intro page
    exact (page.placeSemicolon.exemptions_newlines _).trans page.exemptions_placeSemicolon

theorem Settles.ended {before later : Nat} {written : Print Unit} (laid : Settles before later written)
    (closed : Bool) : Settles before (later - 1) (ended closed written) :=
  laid.bind fun _ => settles_terminate closed later

theorem Grants.ended {granted : Nat} {written : Print Unit} (grants : Grants granted written)
    (count : Nat) (closed : Bool) : Settles count (count + granted - 1) (ended closed written) :=
  (grants.settles count).ended closed

theorem Settles.thenQuiet {α β : Type} {before later : Nat} {action : Print α} {next : α → Print β}
    (front : Settles before later action) (back : ∀ value, Grants 0 (next value)) :
    Settles before later (action >>= next) :=
  front.bind fun value => (back value).settles later

theorem grants_enumerationMembers (afterKeyword : Trivia) (name : Expr) (afterOpen : Trivia)
    (members : Series Expr) :
    Grants (name.grants + Expr.entriesGrants members.items)
      (enumerationMembers afterKeyword name afterOpen members) := by
  unfold enumerationMembers
  refine (grants_write _ _).after fun _ => (grants_slot afterKeyword rfl).after fun _ => ?_
  refine (grants_expr name).bind fun _ => (grants_write _ _).after fun _ => ?_
  refine (grants_trivia afterOpen rfl).after fun moved => .optional (grants_newline .right) ?_
  exact grants_dropSpace.after fun _ => grants_entries _ true true members.items

theorem grants_closeEnumeration (written : Bool) : Grants 0 (closeEnumeration written) := by
  have brace : Grants 0 (modify fun page => (page.setIndentation .left).dropLine.write "\x7d") :=
    fun page => (page.setIndentation .left).dropLine.exemptions_write "\x7d" false
  exact brace.after fun _ => grants_semicolonIf written

theorem grants_remark (form : RemarkForm) (token : Token) : Grants 0 (remark form token) := by
  unfold remark
  refine .ite (fun _ => .read fun page => .ite (fun _ => ?_) fun _ => ?_) fun _ => ?_
  · refine grants_dropBlanks.after fun _ => grants_ensureSpace.after fun _ => ?_
    exact (grants_writeToken token false).after fun _ => grants_newline .stay
  · exact grants_writeToken token true
  · exact (grants_writeToken token false).after fun _ => grants_dropSpace

theorem grants_openBlock (afterOpen : Trivia) (body : List Stmt) :
    Grants (if body.length = 1 then 1 else 0) (openBlock afterOpen body) := by
  have taken : Grants 0 (modifyGet takeBlockRequest) := fun page => page.exemptions_takeBlockRequest
  have claimed : ∀ result : BlockRequest × Bool, Grants (if body.length = 1 then 1 else 0) (do
      if body.length = 1 then
        modify Page.exempt
      return result) := by
    intro result
    by_cases only : body.length = 1
    · rw [if_pos only, if_pos only]
      exact grants_exempt.before fun _ => .pure
    · rw [if_neg only, if_neg only]
      exact .pure
  unfold openBlock
  refine .read fun page => .optional grants_ensureSpace ?_
  refine taken.after fun request => (grants_write _ _).after fun _ => ?_
  refine (grants_trivia afterOpen rfl).after fun moved => .optional (grants_newline .right) ?_
  exact .optional grants_ensureSpace (claimed _)

theorem grants_closeBlockStatement (onLines written : Bool) :
    Grants 0 (closeBlockStatement onLines written) := by
  unfold closeBlockStatement
  refine .read fun page => .ite (fun _ => ?_) fun _ => .pure
  exact (grants_newline .stay).after fun _ => grants_setLineEnded true

theorem grants_closeBlock (request : BlockRequest) (onLines written : Bool) :
    Grants 0 (closeBlock request onLines written) := by
  have broken : Grants 0 (modify fun page => page.ensureNewline .stay) :=
    fun page => page.exemptions_ensureNewline .stay
  have brace : Grants 0 (do
      write "\x7d"
      semicolonIf written
      if !request.noNewlineAfter then
        modify fun page => page.ensureNewline .stay
      setLineEnded true) := by
    refine (grants_write _ _).after fun _ => (grants_semicolonIf written).after fun _ => ?_
    exact .optional broken (grants_setLineEnded true)
  unfold closeBlock
  refine .ite (fun _ => ?_) fun _ => ?_
  · exact grants_dropBlanks.after fun _ => (grants_newline .left).after fun _ => brace
  · refine grants_dropSpace.after fun _ => .read fun page => ?_
    exact .optional grants_ensureSpace brace

theorem grants_openConditional (afterKeyword : Trivia) (condition : Expr) (hasBlock : Bool) :
    Grants condition.grants (openConditional afterKeyword condition hasBlock) := by
  have block : Grants 0 (modify fun page => page.requestBlock { noNewlineAfter := true }) := fun _ => rfl
  have group : Grants 0 (modify fun page =>
    page.requestGroup { move := some .right, respect := some true }) := fun _ => rfl
  unfold openConditional
  refine (grants_write _ _).after fun _ => (grants_slot afterKeyword rfl).after fun _ => ?_
  refine .optional block (.read fun page => .optional group ?_)
  exact (grants_expr condition).before fun _ => .read fun page => .pure

theorem grants_openElse (between : Trivia) (indented : Bool) (afterElse : Trivia) (continues : Bool) :
    Grants (remarks between) (openElse between indented afterElse continues) := by
  unfold openElse
  refine (grants_betweenBranches between indented).before fun _ => .optional grants_dropBlanks ?_
  refine grants_ensureSpace.after fun _ => (grants_write _ _).after fun _ => ?_
  refine .ite (fun _ => ?_) fun _ => grants_trivia afterElse rfl
  exact (grants_slot afterElse rfl).after fun _ => .pure

theorem grants_closeElse (continues moved : Bool) : Grants 0 (closeElse continues moved) := by
  have stepped : Grants 0 (modify fun page => page.setIndentation .left) := fun _ => rfl
  unfold closeElse
  exact .optional stepped (.ite (fun _ => grants_setLineEnded true) fun _ => .pure)

theorem grants_openLoop (keyword : Token) (afterKeyword : Trivia) (condition : Expr) :
    Grants condition.grants (openLoop keyword afterKeyword condition) :=
  (grants_writeToken keyword true).after fun _ => (grants_slot afterKeyword rfl).after fun _ =>
    grants_expr condition

theorem grants_openDo (afterKeyword : Trivia) : Grants 0 (openDo afterKeyword) :=
  (grants_write _ _).after fun _ => (grants_slot afterKeyword rfl).after fun _ _ => rfl

theorem grants_closeDo (between : Trivia) (condition : Expr) (written : Bool) :
    Grants condition.grants (closeDo between condition written) := by
  have rest : Grants condition.grants (do
      write "until" true
      expr condition
      dropSpace
      let _ ← semicolonAndNewline written .stay) := by
    refine (grants_write _ _).after fun _ => (grants_expr condition).before fun _ => ?_
    exact grants_dropSpace.after fun _ => (grants_semicolonAndNewline written .stay).after fun _ => .pure
  unfold closeDo
  refine (grants_slot between rfl).after fun _ => grants_dropBlanks.after fun _ => .read fun page => ?_
  refine .ite (fun _ => ?_) fun _ => ?_
  · exact grants_ensureSpace.after fun _ => rest
  · exact (grants_newline .stay).after fun _ => rest

theorem grants_openFor (afterKeyword afterOpen : Trivia) : Grants 0 (openFor afterKeyword afterOpen) := by
  have entered : Grants 0 (modify Page.enterFor) := fun _ => rfl
  unfold openFor
  refine (grants_write _ _).after fun _ => (grants_slot afterKeyword rfl).after fun _ => ?_
  exact (grants_write _ _).after fun _ => entered.after fun _ => grants_trivia afterOpen rfl

theorem grants_closeFor (afterIncrement : Trivia) (moved : Bool) (afterClose : Trivia) :
    Grants 0 (closeFor afterIncrement moved afterClose) := by
  have left : Grants 0 (modify Page.leaveFor) := fun _ => rfl
  unfold closeFor
  refine (grants_trivia afterIncrement rfl).after fun broken => .optional grants_dropSpace ?_
  refine .optional (grants_newline .left) ((grants_write _ _).after fun _ => ?_)
  exact left.after fun _ => grants_slot afterClose rfl

theorem grants_forHeader (afterStart : Trivia) (condition : Option Expr) (afterCondition : Trivia)
    (increment : Option Expr) (afterIncrement : Trivia) (moved : Bool) (afterClose : Trivia) :
    Grants (Expr.grants? condition + Expr.grants? increment)
      (forHeader afterStart condition afterCondition increment afterIncrement moved afterClose) := by
  rw [forHeader_eq]
  refine (grants_slot afterStart rfl).after fun _ => (grants_exprOr .pure condition).bind fun _ => ?_
  refine grants_dropSpace.after fun _ => (grants_write _ _).after fun _ => ?_
  refine (grants_slot afterCondition rfl).after fun _ => ?_
  exact (grants_exprOr grants_dropSpace increment).before fun _ => grants_closeFor afterIncrement moved afterClose

theorem grants_openSwitch (afterKeyword : Trivia) (subject : Expr) (afterOpen : Trivia) :
    Grants subject.grants (openSwitch afterKeyword subject afterOpen) := by
  unfold openSwitch
  refine (grants_write _ _).after fun _ => (grants_slot afterKeyword rfl).after fun _ => ?_
  refine (grants_expr subject).before fun _ => grants_ensureSpace.after fun _ => ?_
  refine (grants_write _ _).after fun _ => (grants_trivia afterOpen rfl).after fun moved => ?_
  exact .ite (fun _ => grants_newline .right) fun _ => .pure

theorem grants_openBranch (label : Option Expr) (afterKeyword afterColon : Trivia) :
    Grants (Expr.grants? label) (openBranch label afterKeyword afterColon) := by
  have colon : Grants 0 (do
      dropSpace
      write ":" true
      let saved := (← get).indentation
      let moved ← trivia afterColon { move := .right }
      if !moved then
        newline .right
      return saved) := by
    refine grants_dropSpace.after fun _ => (grants_write _ _).after fun _ => .read fun page => ?_
    refine (grants_trivia afterColon rfl).after fun moved => ?_
    exact .optional (grants_newline .right) .pure
  unfold openBranch
  cases label with
  | none => exact (grants_write _ _).after fun _ => colon
  | some label =>
    refine (grants_write _ _).after fun _ => (grants_slot afterKeyword rfl).after fun _ => ?_
    exact (grants_expr label).before fun _ => colon

theorem grants_closeBranch (saved : Int) : Grants 0 (closeBranch saved) :=
  fun _ => rfl

theorem grants_closeSwitch (written : Bool) : Grants 0 (closeSwitch written) :=
  grants_dropBlanks.after fun _ => (grants_newline .left).after fun _ =>
    (grants_write _ _).after fun _ => grants_semicolonIf written

theorem grants_jump (word : String) (value : Option Expr) (written : Bool) :
    Grants (Expr.grants? value) (jump word value written) := by
  have ending : Grants 0 (do let _ ← semicolonAndNewline written .stay) :=
    (grants_semicolonAndNewline written .stay).after fun _ => .pure
  unfold jump
  refine (grants_write _ _).after fun _ => ?_
  cases value with
  | none => exact ending
  | some value => exact (grants_write _ _).after fun _ => (grants_expr value).before fun _ => ending

theorem grants_openDefine (afterKeyword : Trivia) (name : Expr) :
    Grants name.grants (openDefine afterKeyword name) :=
  (grants_write _ _).after fun _ => (grants_slot afterKeyword rfl).after fun _ =>
    (grants_expr name).before fun _ => grants_dropSpace.after fun _ => grants_newline .stay

mutual

theorem settles_stmt : ∀ (statement : Stmt) (count : Nat),
    Settles count (statement.settled count) (stmt statement)
  | .declaration keyword afterKeyword declared written, count => by
    rw [Print.stmt, Stmt.settled]
    exact (grants_declaration keyword afterKeyword declared written).ended count _
  | .enumeration afterKeyword name afterOpen members written, count => by
    rw [Print.stmt, Stmt.settled, Nat.add_assoc]
    have laid := (grants_enumerationMembers afterKeyword name afterOpen members).before fun _ =>
      grants_closeEnumeration written
    exact laid.ended count _
  | .expression expr written, count => by
    rw [Print.stmt, Stmt.settled]
    exact ((grants_expr expr).before fun _ => grants_semicolonIf written).ended count _
  | .block afterOpen body written, count => by
    rw [Print.stmt, Stmt.settled]
    refine .ended (((grants_openBlock afterOpen body).settles count).bind fun opened => ?_) _
    exact (settles_blockStmts opened.2 body _).thenQuiet fun _ => grants_closeBlock opened.1 opened.2 written
  | .conditional afterKeyword condition whenTrue between afterElse none written, count => by
    rw [Print.stmt, Stmt.settled]
    have opened := (grants_openConditional afterKeyword condition whenTrue.isBlock).settles count
    refine (opened.bind fun indented => (settles_stmt whenTrue _).bind fun _ => ?_).ended _
    exact ((grants_betweenBranches between indented).settles _).thenQuiet fun _ => grants_semicolonIf written
  | .conditional afterKeyword condition whenTrue between afterElse (some whenFalse) written, count => by
    rw [Print.stmt, Stmt.settled]
    have opened := (grants_openConditional afterKeyword condition whenTrue.isBlock).settles count
    refine (opened.bind fun indented => (settles_stmt whenTrue _).bind fun _ => ?_).ended _
    refine ((grants_openElse between indented afterElse _).settles _).bind fun moved => ?_
    refine (settles_stmt whenFalse _).thenQuiet fun _ => ?_
    exact (grants_closeElse _ moved).after fun _ => grants_semicolonIf written
  | .loop keyword afterKeyword condition body written, count => by
    rw [Print.stmt, Stmt.settled]
    have opened := (grants_openLoop keyword afterKeyword condition).settles count
    refine (opened.bind fun _ => ?_).ended _
    exact (settles_stmt body _).thenQuiet fun _ => grants_semicolonIf written
  | .doUntil afterKeyword body between condition written, count => by
    rw [Print.stmt, Stmt.settled]
    refine (((grants_openDo afterKeyword).settles count).bind fun _ => ?_).ended _
    exact (settles_stmt body count).bind fun _ => (grants_closeDo between condition written).settles _
  | .forLoop afterKeyword afterOpen none afterStart condition afterCondition increment afterIncrement
      afterClose body written, count => by
    rw [Print.stmt, Stmt.settled, Nat.add_assoc]
    refine (((grants_openFor afterKeyword afterOpen).settles count).bind fun moved => ?_).ended _
    refine ((grants_write ";" true).settles count).bind fun _ => ?_
    refine ((grants_forHeader afterStart condition afterCondition increment afterIncrement moved
      afterClose).settles count).bind fun _ => ?_
    exact (settles_stmt body _).thenQuiet fun _ => grants_semicolonIf written
  | .forLoop afterKeyword afterOpen (some start) afterStart condition afterCondition increment
      afterIncrement afterClose body written, count => by
    rw [Print.stmt, Stmt.settled, Nat.add_assoc]
    refine (((grants_openFor afterKeyword afterOpen).settles count).bind fun moved => ?_).ended _
    refine (settles_stmt start count).bind fun _ => (grants_ensureSpace.settles _).bind fun _ => ?_
    refine ((grants_forHeader afterStart condition afterCondition increment afterIncrement moved
      afterClose).settles _).bind fun _ => ?_
    exact (settles_stmt body _).thenQuiet fun _ => grants_semicolonIf written
  | .switch afterKeyword subject afterOpen cases written, count => by
    rw [Print.stmt, Stmt.settled]
    refine (((grants_openSwitch afterKeyword subject afterOpen).settles count).bind fun _ => ?_).ended _
    exact (settles_branches cases _).thenQuiet fun _ => grants_closeSwitch written
  | .returning value written, count => by
    rw [Print.stmt, Stmt.settled]
    exact (grants_jump "return" value written).ended count _
  | .breaking written, count => (grants_jump "break" none written).ended count _
  | .exiting written, count => (grants_jump "exit" none written).ended count _
  | .remark form token, count => (grants_remark form token).ended count _
  | .define afterKeyword name body, count => by
    rw [Print.stmt, Stmt.settled]
    refine (((grants_openDefine afterKeyword name).settles count).bind fun _ => ?_).ended _
    exact settles_stmts body _

theorem settles_stmts : ∀ (statements : List Stmt) (count : Nat),
    Settles count (Stmt.listSettled count statements) (stmts statements)
  | [], _ => fun _ here => here
  | first :: others, count => (settles_stmt first count).bind fun _ => settles_stmts others _

theorem settles_blockStmts (onLines : Bool) : ∀ (statements : List Stmt) (count : Nat),
    Settles count (Stmt.listSettled count statements) (blockStmts onLines statements)
  | [], _ => fun _ here => here
  | first :: others, count => by
    refine (settles_stmt first count).bind fun _ => ?_
    refine ((grants_closeBlockStatement onLines first.hasSemicolon).settles _).bind fun _ => ?_
    exact settles_blockStmts onLines others _

theorem settles_branches : ∀ (cases : List (Case Stmt)) (count : Nat),
    Settles count (Stmt.casesSettled count cases) (branches cases)
  | [], _ => fun _ here => here
  | ⟨label, afterKeyword, afterColon, body⟩ :: others, count => by
    refine ((grants_openBranch label afterKeyword afterColon).settles count).bind fun saved => ?_
    refine (settles_stmts body _).bind fun _ => ((grants_closeBranch saved).settles _).bind fun _ => ?_
    exact settles_branches others _

end

/-- The exemptions behind the first statements of a program, on a page that started out empty. -/
theorem exemptions_stmts (settings : Settings) (statements : List Stmt) :
    (after (stmts statements) (Page.blank settings)).exemptions = Stmt.listSettled 0 statements :=
  settles_stmts statements 0 (Page.blank settings) rfl

end Print

namespace Stmt

theorem listSettled_append (front back : List Stmt) (count : Nat) :
    listSettled count (front ++ back) = listSettled (listSettled count front) back := by
  induction front generalizing count with
  | nil => rfl
  | cons first others ih => exact ih (settled count first)

theorem listSettled_zero {statements : List Stmt}
    (settles : ∀ statement ∈ statements, statement.settled 0 = 0) : listSettled 0 statements = 0 := by
  induction statements with
  | nil => rfl
  | cons first others ih =>
    rw [List.forall_mem_cons] at settles
    rw [listSettled, settles.1]
    exact ih settles.2

end Stmt

/-- However a page is set up, no exemption is left behind any of the top-level statements if and only if
each of them, begun without exemptions, uses up all it claims. -/
theorem exemptions_balanced_iff (program : List Stmt) :
    (∀ (settings : Settings) (front back : List Stmt), program = front ++ back →
      (Print.after (Print.stmts front) (Page.blank settings)).exemptions = 0) ↔
    ∀ statement ∈ program, statement.settled 0 = 0 := by
  constructor
  · intro balanced statement member
    obtain ⟨front, back, split⟩ := List.append_of_mem member
    have before : Stmt.listSettled 0 front = 0 := by
      rw [← Print.exemptions_stmts {}]
      exact balanced {} front (statement :: back) split
    have behind : Stmt.listSettled 0 (front ++ [statement]) = 0 := by
      rw [← Print.exemptions_stmts {}]
      exact balanced {} (front ++ [statement]) back (by rw [split, List.append_assoc, List.singleton_append])
    rwa [Stmt.listSettled_append, before] at behind
  · intro settles settings front back split
    rw [Print.exemptions_stmts]
    refine Stmt.listSettled_zero fun statement member => settles statement ?_
    rw [split]
    exact List.mem_append_left back member

/-- Two remarks behind a call claim two exemptions and its end uses up one; the other one costs the next
statement its semicolon. -/
theorem exemption_handed_on : ∃ program, parse "f() // a\n// b\ng()" = .ok program ∧
    (program.map (Stmt.settled 0) = [1, 0] ∧
      (Print.after (Print.stmts (program.take 1)) (Page.blank {})).exemptions = 1 ∧
      (layOut {} program).output = "f() // a\n// b\ng()\n") :=
  exists_ok (by decide +kernel)

end GmlLayout
