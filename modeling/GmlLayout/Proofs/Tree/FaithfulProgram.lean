import GmlLayout.Proofs.Grammar.Completeness
import GmlLayout.Proofs.Grammar.StatementForms
import GmlLayout.Proofs.Tree.Faithful

/-!
The dump of a program determines the program, whatever its sources were: no text in a token, no missing part
and no nesting makes two different programs look alike.
-/

namespace GmlLayout

open Token (Native dumpSlot dumpSlot_inj)

namespace Variable

theorem keyword_inj {keyword other : Option Token}
    (same : (match keyword with | none => Json.null | some keyword => keyword.dump) =
      match other with | none => Json.null | some keyword => keyword.dump)
    (formed : KeywordFormed Native keyword) (known : KeywordFormed Native other) : keyword = other := by
  cases keyword with
  | none =>
    cases other with
    | none => rfl
    | some other => exact absurd same.symm (Token.dump_ne_null other)
  | some keyword =>
    cases other with
    | none => exact absurd same (Token.dump_ne_null keyword)
    | some other => rw [Token.dump_inj formed.1 known.1 same]

theorem dump_inj {declared other : Variable} (formed : declared.Formed Native) (known : other.Formed Native)
    (same : declared.dump = other.dump) : declared = other := by
  simp only [dump, Json.node_inj, Json.fields_inj, true_and, and_true] at same
  obtain ⟨target, keyword, afterKeyword⟩ := same
  have targets := Expr.dump_inj formed.1 known.1 target
  have keywords := keyword_inj keyword formed.2.1 known.2.1
  have slots := dumpSlot_inj formed.2.2 known.2.2 afterKeyword
  cases declared
  cases other
  simp_all

theorem dumpItems_inj {items others : List (Item Variable)} (formed : ItemsFormed Native items)
    (known : ItemsFormed Native others)
    (same : (items.map fun item => Series.dumpItem item.value.dump item.trailing) =
      others.map fun item => Series.dumpItem item.value.dump item.trailing) : items = others := by
  induction items generalizing others with
  | nil => exact (List.map_eq_nil_iff.mp same.symm).symm
  | cons item items ih =>
    cases others with
    | nil => cases same
    | cons other others =>
      obtain ⟨first, rest⟩ := List.cons.inj same
      obtain ⟨here, later⟩ := List.forall_mem_cons.mp formed
      obtain ⟨there, further⟩ := List.forall_mem_cons.mp known
      obtain ⟨value, trailing⟩ := Series.dumpItem_inj.mp first
      have values := dump_inj here.1 there.1 value
      have slots := dumpSlot_inj here.2 there.2 trailing
      rw [ih later further rest]
      cases item
      cases other
      simp_all

end Variable

namespace RemarkForm

theorem name_inj {form other : RemarkForm} (same : form.name = other.name) : form = other := by
  cases form <;> cases other <;> simp_all [name]

end RemarkForm

namespace Stmt

theorem exists_dump_eq (stmt : Stmt) : ∃ fields, stmt.dump = .node stmt.name fields :=
  ⟨_, dump.eq_def stmt⟩

theorem dumpNode_inj {stmt other : Stmt} {fields others : List (String × Json)} :
    stmt.dumpNode fields = other.dumpNode others ↔
      stmt.name = other.name ∧ stmt.hasSemicolon = other.hasSemicolon ∧ fields = others := by
  simp [dumpNode, Json.node]

theorem name_eq {stmt other : Stmt} (same : stmt.dump = other.dump) : stmt.name = other.name := by
  obtain ⟨fields, shape⟩ := exists_dump_eq stmt
  obtain ⟨fields', shape'⟩ := exists_dump_eq other
  rw [shape, shape', Json.node_inj] at same
  exact same.1

theorem ctorIdx_eq {stmt other : Stmt} (same : stmt.dump = other.dump) : stmt.ctorIdx = other.ctorIdx := by
  have names := name_eq same
  cases stmt with
  | remark form =>
    cases other with
    | remark => rfl
    | _ => cases form <;> simp [name, RemarkForm.name] at names
  | _ =>
    cases other with
    | remark form => cases form <;> simp [name, RemarkForm.name] at names
    | _ => first | rfl | simp [name] at names

theorem dump_ne_null (stmt : Stmt) : stmt.dump ≠ .null := by
  obtain ⟨fields, shape⟩ := exists_dump_eq stmt
  simp [shape, Json.node]

/-- No other statement with native tokens has the same dump. -/
def Determined (stmt : Stmt) : Prop :=
  stmt.Formed Native → ∀ other : Stmt, other.Formed Native → stmt.dump = other.dump → stmt = other

def DeterminedAll (stmts : List Stmt) : Prop :=
  ListFormed Native stmts → ∀ others, ListFormed Native others →
    dumpAll stmts = dumpAll others → stmts = others

def DeterminedCases (cases : List (Case Stmt)) : Prop :=
  CasesFormed Native cases → ∀ others, CasesFormed Native others →
    dumpCases cases = dumpCases others → cases = others

attribute [simp] dump

namespace Determined

theorem declaration {keyword : Token} {afterKeyword : Trivia} {items : List (Item Variable)}
    {ended semicolon : Bool} : Determined (.declaration keyword afterKeyword ⟨items, ended⟩ semicolon) := by
  intro formed other known same
  have sorts := ctorIdx_eq same
  cases other with
  | declaration _ _ declared =>
    obtain ⟨others, _⟩ := declared
    simp only [dump, dumpNode_inj, name, hasSemicolon, Json.fields_inj, Series.dumpWith_inj, true_and,
      and_true] at same
    obtain ⟨semicolon, keyword, after, same, ended⟩ := same
    obtain rfl : items = others := Variable.dumpItems_inj formed.2.2 known.2.2 same
    rw [semicolon, Token.dump_inj formed.1.1 known.1.1 keyword, dumpSlot_inj formed.2.1 known.2.1 after,
      ended]
  | _ => cases sorts

theorem enumeration {title : Expr} {afterKeyword afterOpen : Trivia} {items : List (Item Expr)}
    {ended semicolon : Bool} :
    Determined (.enumeration afterKeyword title afterOpen ⟨items, ended⟩ semicolon) := by
  intro formed other known same
  have sorts := ctorIdx_eq same
  cases other with
  | enumeration _ _ _ members =>
    obtain ⟨others, _⟩ := members
    simp only [dump, dumpNode_inj, name, hasSemicolon, Json.fields_inj, Series.dumpWith_inj, true_and,
      and_true] at same
    obtain ⟨semicolon, after, title, opened, same, ended⟩ := same
    obtain rfl : items = others := Expr.dumpItems_inj formed.2.2.2 known.2.2.2 same
    rw [semicolon, dumpSlot_inj formed.1 known.1 after, Expr.dump_inj formed.2.1 known.2.1 title,
      dumpSlot_inj formed.2.2.1 known.2.2.1 opened, ended]
  | _ => cases sorts

theorem expression {expr : Expr} {semicolon : Bool} : Determined (.expression expr semicolon) := by
  intro formed other known same
  have sorts := ctorIdx_eq same
  cases other with
  | expression =>
    simp only [dump, dumpNode_inj, name, hasSemicolon, Json.fields_inj, true_and, and_true] at same
    obtain ⟨semicolon, expr⟩ := same
    rw [semicolon, Expr.dump_inj formed known expr]
  | _ => cases sorts

theorem block {afterOpen : Trivia} {body : List Stmt} {semicolon : Bool} (all : DeterminedAll body) :
    Determined (.block afterOpen body semicolon) := by
  intro formed other known same
  have sorts := ctorIdx_eq same
  cases other with
  | block =>
    simp only [dump, dumpNode_inj, name, hasSemicolon, Json.fields_inj, Json.list.injEq, true_and,
      and_true] at same
    obtain ⟨semicolon, opened, body⟩ := same
    rw [semicolon, dumpSlot_inj formed.1 known.1 opened, all formed.2 _ known.2 body]
  | _ => cases sorts

theorem conditionalAlone {condition : Expr} {whenTrue : Stmt} {afterKeyword between afterElse : Trivia}
    {semicolon : Bool} (inner : Determined whenTrue) :
    Determined (.conditional afterKeyword condition whenTrue between afterElse none semicolon) := by
  intro formed other known same
  have sorts := ctorIdx_eq same
  cases other with
  | conditional _ _ _ _ _ branch =>
    cases branch with
    | none =>
      simp only [dump, dumpNode_inj, name, hasSemicolon, Json.fields_inj, true_and, and_true] at same
      obtain ⟨semicolon, after, condition, whenTrue, between, afterElse⟩ := same
      rw [semicolon, dumpSlot_inj formed.1 known.1 after, Expr.dump_inj formed.2.1 known.2.1 condition,
        inner formed.2.2.1 _ known.2.2.1 whenTrue, dumpSlot_inj formed.2.2.2.1 known.2.2.2.1 between,
        dumpSlot_inj formed.2.2.2.2 known.2.2.2.2 afterElse]
    | some branch =>
      simp only [dump, dumpNode_inj, name, hasSemicolon, Json.fields_inj, true_and, and_true] at same
      exact absurd same.2.2.2.2.2.2.symm (dump_ne_null branch)
  | _ => cases sorts

theorem conditional {condition : Expr} {whenTrue whenFalse : Stmt} {afterKeyword between afterElse : Trivia}
    {semicolon : Bool} (first : Determined whenTrue) (second : Determined whenFalse) :
    Determined (.conditional afterKeyword condition whenTrue between afterElse (some whenFalse) semicolon) := by
  intro formed other known same
  have sorts := ctorIdx_eq same
  cases other with
  | conditional _ _ _ _ _ branch =>
    cases branch with
    | none =>
      simp only [dump, dumpNode_inj, name, hasSemicolon, Json.fields_inj, true_and, and_true] at same
      exact absurd same.2.2.2.2.2.2 (dump_ne_null whenFalse)
    | some branch =>
      simp only [dump, dumpNode_inj, name, hasSemicolon, Json.fields_inj, true_and, and_true] at same
      obtain ⟨semicolon, after, condition, whenTrue, between, afterElse, whenFalse⟩ := same
      rw [semicolon, dumpSlot_inj formed.1 known.1 after, Expr.dump_inj formed.2.1 known.2.1 condition,
        first formed.2.2.1 _ known.2.2.1 whenTrue, dumpSlot_inj formed.2.2.2.1 known.2.2.2.1 between,
        dumpSlot_inj formed.2.2.2.2.1 known.2.2.2.2.1 afterElse,
        second formed.2.2.2.2.2 _ known.2.2.2.2.2 whenFalse]
  | _ => cases sorts

theorem loop {keyword : Token} {condition : Expr} {body : Stmt} {afterKeyword : Trivia} {semicolon : Bool}
    (inner : Determined body) : Determined (.loop keyword afterKeyword condition body semicolon) := by
  intro formed other known same
  have sorts := ctorIdx_eq same
  cases other with
  | loop =>
    simp only [dump, dumpNode_inj, name, hasSemicolon, Json.fields_inj, true_and, and_true] at same
    obtain ⟨semicolon, keyword, after, condition, body⟩ := same
    rw [semicolon, Token.dump_inj formed.1.1 known.1.1 keyword, dumpSlot_inj formed.2.1 known.2.1 after,
      Expr.dump_inj formed.2.2.1 known.2.2.1 condition, inner formed.2.2.2 _ known.2.2.2 body]
  | _ => cases sorts

theorem doUntil {condition : Expr} {body : Stmt} {afterKeyword between : Trivia} {semicolon : Bool}
    (inner : Determined body) : Determined (.doUntil afterKeyword body between condition semicolon) := by
  intro formed other known same
  have sorts := ctorIdx_eq same
  cases other with
  | doUntil =>
    simp only [dump, dumpNode_inj, name, hasSemicolon, Json.fields_inj, true_and, and_true] at same
    obtain ⟨semicolon, after, body, between, condition⟩ := same
    rw [semicolon, dumpSlot_inj formed.1 known.1 after, inner formed.2.1 _ known.2.1 body,
      dumpSlot_inj formed.2.2.1 known.2.2.1 between, Expr.dump_inj formed.2.2.2 known.2.2.2 condition]
  | _ => cases sorts

theorem forLoopBare {condition increment : Option Expr} {body : Stmt}
    {afterKeyword afterOpen afterStart afterCondition afterIncrement afterClose : Trivia} {semicolon : Bool}
    (inner : Determined body) :
    Determined (.forLoop afterKeyword afterOpen none afterStart condition afterCondition increment
      afterIncrement afterClose body semicolon) := by
  intro formed other known same
  have sorts := ctorIdx_eq same
  cases other with
  | forLoop _ _ begun =>
    cases begun with
    | none =>
      simp only [dump, dumpNode_inj, name, hasSemicolon, Json.fields_inj, true_and, and_true] at same
      obtain ⟨semicolon, after, opened, afterStart, condition, afterCondition, increment, afterIncrement,
        closed, body⟩ := same
      rw [semicolon, dumpSlot_inj formed.1 known.1 after, dumpSlot_inj formed.2.1 known.2.1 opened,
        dumpSlot_inj formed.2.2.1 known.2.2.1 afterStart,
        Expr.dump?_inj formed.2.2.2.1 known.2.2.2.1 condition,
        dumpSlot_inj formed.2.2.2.2.1 known.2.2.2.2.1 afterCondition,
        Expr.dump?_inj formed.2.2.2.2.2.1 known.2.2.2.2.2.1 increment,
        dumpSlot_inj formed.2.2.2.2.2.2.1 known.2.2.2.2.2.2.1 afterIncrement,
        dumpSlot_inj formed.2.2.2.2.2.2.2.1 known.2.2.2.2.2.2.2.1 closed,
        inner formed.2.2.2.2.2.2.2.2 _ known.2.2.2.2.2.2.2.2 body]
    | some begun =>
      simp only [dump, dumpNode_inj, name, hasSemicolon, Json.fields_inj, true_and, and_true] at same
      exact absurd same.2.2.2.1.symm (dump_ne_null begun)
  | _ => cases sorts

theorem forLoop {start body : Stmt} {condition increment : Option Expr}
    {afterKeyword afterOpen afterStart afterCondition afterIncrement afterClose : Trivia} {semicolon : Bool}
    (first : Determined start) (second : Determined body) :
    Determined (.forLoop afterKeyword afterOpen (some start) afterStart condition afterCondition increment
      afterIncrement afterClose body semicolon) := by
  intro formed other known same
  have sorts := ctorIdx_eq same
  cases other with
  | forLoop _ _ begun =>
    cases begun with
    | none =>
      simp only [dump, dumpNode_inj, name, hasSemicolon, Json.fields_inj, true_and, and_true] at same
      exact absurd same.2.2.2.1 (dump_ne_null start)
    | some begun =>
      simp only [dump, dumpNode_inj, name, hasSemicolon, Json.fields_inj, true_and, and_true] at same
      obtain ⟨semicolon, after, opened, start, afterStart, condition, afterCondition, increment,
        afterIncrement, closed, body⟩ := same
      rw [semicolon, dumpSlot_inj formed.1 known.1 after, dumpSlot_inj formed.2.1 known.2.1 opened,
        first formed.2.2.1 _ known.2.2.1 start, dumpSlot_inj formed.2.2.2.1 known.2.2.2.1 afterStart,
        Expr.dump?_inj formed.2.2.2.2.1 known.2.2.2.2.1 condition,
        dumpSlot_inj formed.2.2.2.2.2.1 known.2.2.2.2.2.1 afterCondition,
        Expr.dump?_inj formed.2.2.2.2.2.2.1 known.2.2.2.2.2.2.1 increment,
        dumpSlot_inj formed.2.2.2.2.2.2.2.1 known.2.2.2.2.2.2.2.1 afterIncrement,
        dumpSlot_inj formed.2.2.2.2.2.2.2.2.1 known.2.2.2.2.2.2.2.2.1 closed,
        second formed.2.2.2.2.2.2.2.2.2 _ known.2.2.2.2.2.2.2.2.2 body]
  | _ => cases sorts

theorem switch {subject : Expr} {afterKeyword afterOpen : Trivia} {cases : List (Case Stmt)}
    {semicolon : Bool} (all : DeterminedCases cases) :
    Determined (.switch afterKeyword subject afterOpen cases semicolon) := by
  intro formed other known same
  have sorts := ctorIdx_eq same
  cases other with
  | switch =>
    simp only [dump, dumpNode_inj, name, hasSemicolon, Json.fields_inj, Json.list.injEq, true_and,
      and_true] at same
    obtain ⟨semicolon, after, subject, opened, cases⟩ := same
    rw [semicolon, dumpSlot_inj formed.1 known.1 after, Expr.dump_inj formed.2.1 known.2.1 subject,
      dumpSlot_inj formed.2.2.1 known.2.2.1 opened, all formed.2.2.2 _ known.2.2.2 cases]
  | _ => cases sorts

theorem returning {value : Option Expr} {semicolon : Bool} : Determined (.returning value semicolon) := by
  intro formed other known same
  have sorts := ctorIdx_eq same
  cases other with
  | returning =>
    simp only [dump, dumpNode_inj, name, hasSemicolon, Json.fields_inj, true_and, and_true] at same
    obtain ⟨semicolon, value⟩ := same
    rw [semicolon, Expr.dump?_inj formed known value]
  | _ => cases sorts

theorem breaking {semicolon : Bool} : Determined (.breaking semicolon) := by
  intro formed other known same
  have sorts := ctorIdx_eq same
  cases other with
  | breaking =>
    simp only [dump, dumpNode_inj, name, hasSemicolon, true_and, and_true] at same
    rw [same]
  | _ => cases sorts

theorem exiting {semicolon : Bool} : Determined (.exiting semicolon) := by
  intro formed other known same
  have sorts := ctorIdx_eq same
  cases other with
  | exiting =>
    simp only [dump, dumpNode_inj, name, hasSemicolon, true_and, and_true] at same
    rw [same]
  | _ => cases sorts

theorem remark {form : RemarkForm} {token : Token} : Determined (.remark form token) := by
  intro formed other known same
  have sorts := ctorIdx_eq same
  cases other with
  | remark =>
    simp only [dump, dumpNode_inj, name, hasSemicolon, Json.fields_inj, true_and, and_true] at same
    obtain ⟨form, token⟩ := same
    rw [RemarkForm.name_inj form, Token.dump_inj formed.1 known.1 token]
  | _ => cases sorts

theorem define {title : Expr} {afterKeyword : Trivia} {body : List Stmt} (all : DeterminedAll body) :
    Determined (.define afterKeyword title body) := by
  intro formed other known same
  have sorts := ctorIdx_eq same
  cases other with
  | define =>
    simp only [dump, dumpNode_inj, name, hasSemicolon, Json.fields_inj, Json.list.injEq, true_and,
      and_true] at same
    obtain ⟨after, title, body⟩ := same
    rw [dumpSlot_inj formed.1 known.1 after, Expr.dump_inj formed.2.1 known.2.1 title,
      all formed.2.2 _ known.2.2 body]
  | _ => cases sorts

theorem nil : DeterminedAll [] := by
  intro _ others _ same
  cases others with
  | nil => rfl
  | cons => simp [dumpAll] at same

theorem cons {stmt : Stmt} {stmts : List Stmt} (here : Determined stmt) (later : DeterminedAll stmts) :
    DeterminedAll (stmt :: stmts) := by
  intro formed others known same
  cases others with
  | nil => simp [dumpAll] at same
  | cons other others =>
    obtain ⟨first, rest⟩ := List.cons.inj same
    rw [here formed.1 _ known.1 first, later formed.2 _ known.2 rest]

theorem casesNil : DeterminedCases [] := by
  intro _ others _ same
  cases others with
  | nil => rfl
  | cons => simp [dumpCases] at same

theorem casesCons {label : Option Expr} {afterKeyword afterColon : Trivia} {body : List Stmt}
    {cases : List (Case Stmt)} (here : DeterminedAll body) (later : DeterminedCases cases) :
    DeterminedCases (⟨label, afterKeyword, afterColon, body⟩ :: cases) := by
  intro formed others known same
  cases others with
  | nil => simp [dumpCases] at same
  | cons other others =>
    obtain ⟨first, rest⟩ := List.cons.inj same
    simp only [Json.node_inj, Json.fields_inj, Json.list.injEq, true_and, and_true] at first
    obtain ⟨constant, keyword, colon, stmts⟩ := first
    rw [Expr.dump?_inj formed.1 known.1 constant, dumpSlot_inj formed.2.1 known.2.1 keyword,
      dumpSlot_inj formed.2.2.1 known.2.2.1 colon, here formed.2.2.2.1 _ known.2.2.2.1 stmts,
      later formed.2.2.2.2 _ known.2.2.2.2 rest]

end Determined

mutual

theorem determined : (stmt : Stmt) → Determined stmt
  | .declaration _ _ ⟨_, _⟩ _ => .declaration
  | .enumeration _ _ _ ⟨_, _⟩ _ => .enumeration
  | .expression .. => .expression
  | .block _ body _ => .block (determinedAll body)
  | .conditional _ _ whenTrue _ _ none _ => .conditionalAlone (determined whenTrue)
  | .conditional _ _ whenTrue _ _ (some whenFalse) _ =>
    .conditional (determined whenTrue) (determined whenFalse)
  | .loop _ _ _ body _ => .loop (determined body)
  | .doUntil _ body .. => .doUntil (determined body)
  | .forLoop _ _ none _ _ _ _ _ _ body _ => .forLoopBare (determined body)
  | .forLoop _ _ (some start) _ _ _ _ _ _ body _ => .forLoop (determined start) (determined body)
  | .switch _ _ _ cases _ => .switch (determinedCases cases)
  | .returning .. => .returning
  | .breaking _ => .breaking
  | .exiting _ => .exiting
  | .remark .. => .remark
  | .define _ _ body => .define (determinedAll body)

theorem determinedAll : (stmts : List Stmt) → DeterminedAll stmts
  | [] => Determined.nil
  | stmt :: stmts => Determined.cons (determined stmt) (determinedAll stmts)

theorem determinedCases : (cases : List (Case Stmt)) → DeterminedCases cases
  | [] => Determined.casesNil
  | ⟨_, _, _, body⟩ :: cases => Determined.casesCons (determinedAll body) (determinedCases cases)

end

end Stmt

theorem parse_native {source : String} {program : List Stmt} (parsed : parse source = .ok program) :
    Stmt.ListFormed Native program := by
  have start : Reader.Formed Native { rest := scan source } :=
    ⟨fun _ member => Token.native_of_mem_scan member, trivial⟩
  unfold parse at parsed
  split at parsed
  · rename_i result stop ran
    cases parsed
    exact (Forms.program (Rules.forming_upTo _).statement _ _ start _ _ ran).2
  · cases parsed

/-- Two programs look alike in a dump only if they are equal. -/
theorem dumpProgram_eq_iff {source text : String} {program other : List Stmt}
    (parsed : parse source = .ok program) (read : parse text = .ok other) :
    Stmt.dumpProgram program = Stmt.dumpProgram other ↔ program = other := by
  constructor
  · intro same
    have documents := Json.list.inj (Json.render_inj same)
    exact Stmt.determinedAll program (parse_native parsed) other (parse_native read) documents
  · rintro rfl
    rfl

/-- A quotation mark in a string looks different from an escaped one. -/
theorem dumpProgram_quotes_ne : ∃ program other,
    parse "s = '\"'" = .ok program ∧ parse "s = '\\\"'" = .ok other ∧
      Stmt.dumpProgram program ≠ Stmt.dumpProgram other := by
  have plain : ∃ program, parse "s = '\"'" = .ok program ∧
      ((Stmt.listLeaves program).filterMap Leaf.stored).map Token.lexeme = ["s", "=", "'\"'"] :=
    exists_ok (by decide +kernel)
  have escaped : ∃ program, parse "s = '\\\"'" = .ok program ∧
      ((Stmt.listLeaves program).filterMap Leaf.stored).map Token.lexeme = ["s", "=", "'\\\"'"] :=
    exists_ok (by decide +kernel)
  obtain ⟨program, parsed, lexemes⟩ := plain
  obtain ⟨other, read, others⟩ := escaped
  refine ⟨program, other, parsed, read, fun same => ?_⟩
  rw [(dumpProgram_eq_iff parsed read).mp same, others] at lexemes
  exact absurd lexemes (by decide)

end GmlLayout
