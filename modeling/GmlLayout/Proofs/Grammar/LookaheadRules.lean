import GmlLayout.Grammar.Statement
import GmlLayout.Proofs.Grammar.Lookahead

/-!
The rules of the grammar look no further than the next token, given that the rules they refer back to do
not. Two sets of rules that cannot be told apart on inputs of a number of tokens cannot, after one step of
the grammar, on inputs of one token more: each reference back stands behind a token that was taken.
Repetitions need no more turns than there are tokens.
-/

namespace GmlLayout

inductive Covers : Nat → Nat → Nat → Prop where
  | last {count other : Nat} : Covers 0 count other
  | turn {most count other : Nat} : Covers most count other → Covers (most + 1) (count + 1) (other + 1)

theorem Covers.of_le {most count other : Nat} (enough : most ≤ count) (enough' : most ≤ other) :
    Covers most count other := by
  induction most generalizing count other with
  | zero => exact .last
  | succ most ih =>
    obtain ⟨count, rfl⟩ := Nat.exists_eq_succ_of_ne_zero (Nat.ne_zero_of_lt enough)
    obtain ⟨other, rfl⟩ := Nat.exists_eq_succ_of_ne_zero (Nat.ne_zero_of_lt enough')
    exact .turn (ih (Nat.le_of_succ_le_succ enough) (Nat.le_of_succ_le_succ enough'))

namespace Rules

structure FailAtEnd (rules : Rules) : Prop where
  statement : GmlLayout.FailsAtEnd rules.statement
  expression : GmlLayout.FailsAtEnd rules.expression
  assignment : GmlLayout.FailsAtEnd rules.assignment
  ternary : GmlLayout.FailsAtEnd rules.ternary
  binary : ∀ tiers, GmlLayout.FailsAtEnd (rules.binary tiers)
  unary : GmlLayout.FailsAtEnd rules.unary
  call : GmlLayout.FailsAtEnd rules.call

/-- On inputs of at most `most` tokens the two sets of rules cannot be told apart. -/
structure Alike (most : Nat) (rules others : Rules) : Prop where
  enough : most ≤ rules.bound
  enoughOther : most ≤ others.bound
  statement : GmlLayout.Alike most true [] rules.statement others.statement
  expression : GmlLayout.Alike most true [] rules.expression others.expression
  assignment : GmlLayout.Alike most true [] rules.assignment others.assignment
  ternary : GmlLayout.Alike most true [] rules.ternary others.ternary
  binary : ∀ tiers, GmlLayout.Alike most true [] (rules.binary tiers) (others.binary tiers)
  unary : GmlLayout.Alike most true [] rules.unary others.unary
  call : GmlLayout.Alike most true [] rules.call others.call

namespace Alike

variable {most : Nat} {rules others : Rules}

theorem covers (alike : Alike most rules others) : Covers most rules.bound others.bound :=
  .of_le alike.enough alike.enoughOther

theorem fewer (alike : Alike (most + 1) rules others) : Alike most rules others where
  enough := Nat.le_of_succ_le alike.enough
  enoughOther := Nat.le_of_succ_le alike.enoughOther
  statement := alike.statement.mono (Nat.le_succ most)
  expression := alike.expression.mono (Nat.le_succ most)
  assignment := alike.assignment.mono (Nat.le_succ most)
  ternary := alike.ternary.mono (Nat.le_succ most)
  binary tiers := (alike.binary tiers).mono (Nat.le_succ most)
  unary := alike.unary.mono (Nat.le_succ most)
  call := alike.call.mono (Nat.le_succ most)

end Alike

end Rules

namespace Parse

def statementAt (rules : Rules) : Option Token → Parse Stmt
  | none => expressionStatement rules
  | some token =>
    if isVariableKeyword token.kind then
      declaration rules
    else
      match opened rules token with
      | some rest => do
        let _ ← advance
        rest
      | none => expressionStatement rules

theorem statement_run (rules : Rules) (start : Reader) :
    statement rules start = statementAt rules start.rest.head? start := rfl

end Parse

namespace FailsAtEnd

theorem entries {entry : Parse Expr} (each : FailsAtEnd entry) (closing : Kind) (count : Nat) :
    FailsAtEnd (Parse.entries entry closing count) := by
  cases count with
  | zero => exact throw
  | succ left => exact after .check each.bind

theorem groupRest {expression : Parse Expr} (each : FailsAtEnd expression) (count : Nat) :
    FailsAtEnd (Parse.groupRest expression count) := by
  cases count with
  | zero => exact throw
  | succ left => exact after .accept each.bind

variable {rules : Rules}

theorem primary : FailsAtEnd (Parse.primary rules) :=
  advance.bind

theorem call : FailsAtEnd (Parse.call rules) :=
  primary.bind

theorem unary : FailsAtEnd (Parse.unary rules) :=
  after .check call.bind

theorem binary (tiers : List Tier) : FailsAtEnd (Parse.binary rules tiers) := by
  induction tiers with
  | nil => exact unary
  | cons tier tighter ih => exact ih.bind

theorem ternary : FailsAtEnd (Parse.ternary rules) :=
  (binary Tier.all).bind

theorem assignment : FailsAtEnd (Parse.assignment rules) :=
  ternary.bind

theorem expression : FailsAtEnd (Parse.expression rules) := by
  intro start none
  exact assignment.bind { start with allowUnidentified := true } none

theorem statement : FailsAtEnd (Parse.statement rules) := by
  intro start none
  rw [Parse.statement_run, none]
  exact expression.bind start none

end FailsAtEnd

namespace RestsAtEnd

theorem indices (expression : Parse Expr) (count : Nat) :
    RestsAtEnd (Parse.indices expression count) [] := by
  cases count with
  | zero => exact pure
  | succ left => exact sees.bind pure

theorem accesses (rules : Rules) (count : Nat) (owner : Expr) :
    RestsAtEnd (Parse.accesses rules count owner) owner := by
  cases count with
  | zero => exact pure
  | succ left => exact sees.bind (sees.bind pure)

theorem chain (operand : Parse Expr) (joins : Kind → Bool) (count : Nat) (left : Expr) :
    RestsAtEnd (Parse.chain operand joins count left) left := by
  cases count with
  | zero => exact pure
  | succ count => exact sees.bind pure

theorem statementsUntil (statement : Parse Stmt) (ends : Kind → Bool) (count : Nat) :
    RestsAtEnd (Parse.statementsUntil statement ends count) [] := by
  cases count with
  | zero => exact pure
  | succ left => exact sees.bind pure

theorem variableList (rules : Rules) (count : Nat) :
    RestsAtEnd (Parse.variableList rules count) ⟨[], true⟩ := by
  cases count with
  | zero => exact pure
  | succ left => exact check.bind (check.bind (peek.bind pure))

theorem branches (rules : Rules) (count : Nat) : RestsAtEnd (Parse.branches rules count) [] := by
  cases count with
  | zero => exact pure
  | succ left => exact sees.bind pure

theorem program (statement : Parse Stmt) (count : Nat) : RestsAtEnd (Parse.program statement count) [] := by
  cases count with
  | zero => exact pure
  | succ left => exact sees.bind pure

end RestsAtEnd

namespace Alike

variable {most count otherCount : Nat} {rules others : Rules}

theorem entries {entry otherEntry : Parse Expr} (each : Alike most true [] entry otherEntry)
    (closing : Kind) (covers : Covers most count otherCount) :
    Alike most false [] (Parse.entries entry closing count)
      (Parse.entries otherEntry closing otherCount) := by
  induction covers with
  | last => exact ended (each.failsAtEnd.entries _ _) (each.other_failsAtEnd.entries _ _)
  | turn covers ih =>
    have others := ih (each.mono (Nat.le_succ _))
    unfold Parse.entries
    refine check.bind fun closed => ite pure (relax ?_)
    refine each.after fun value => accept.bind fun more => slot.bind fun trailing => ite ?_ pure
    exact others.bind fun others => pure

theorem groupRest {expression otherExpression : Parse Expr}
    (each : Alike most true [] expression otherExpression) (covers : Covers most count otherCount) :
    Alike most false [] (Parse.groupRest expression count)
      (Parse.groupRest otherExpression otherCount) := by
  induction covers with
  | last => exact ended (each.failsAtEnd.groupRest _) (each.other_failsAtEnd.groupRest _)
  | turn covers ih =>
    have others := ih (each.mono (Nat.le_succ _))
    unfold Parse.groupRest
    refine accept.bind fun closed => ite pure (relax ?_)
    exact each.after fun expr => others.bind fun others => pure

theorem indices {expression otherExpression : Parse Expr}
    (each : Alike most true [] expression otherExpression) (covers : Covers most count otherCount) :
    Alike most false [] (Parse.indices expression count)
      (Parse.indices otherExpression otherCount) := by
  induction covers with
  | last => exact rested (.indices _ _) (.indices _ _)
  | turn covers ih =>
    have others := ih (each.mono (Nat.le_succ _))
    unfold Parse.indices
    refine sees.bind fun more => ite (slot.bind fun before => relax ?_) pure
    refine each.after fun index => accept.bind fun more => ite ?_ pure
    exact others.bind fun others => pure

theorem accesses (alike : Rules.Alike most rules others) (covers : Covers most count otherCount)
    (owner : Expr) :
    Alike most false [] (Parse.accesses rules count owner) (Parse.accesses others otherCount owner) := by
  induction covers generalizing owner with
  | last => exact rested (.accesses _ _ _) (.accesses _ _ _)
  | turn covers ih =>
    have fewer := alike.fewer
    unfold Parse.accesses
    refine sees.bind fun dotted => ite (relax ?_) (sees.bind fun indexed => ite (relax ?_) pure)
    · refine advance.after fun _ => slot.bind fun afterDot => fewer.call.bind fun member => ?_
      exact slot.bind fun trailing => ih fewer _
    · refine advance.after fun accessor => ?_
      refine (indices fewer.expression fewer.covers).bind fun indices => ?_
      exact accept.bind fun _ => slot.bind fun trailing => ih fewer _

theorem chain {operand otherOperand : Parse Expr} (each : Alike most true [] operand otherOperand)
    (joins : Kind → Bool) (covers : Covers most count otherCount) (left : Expr) :
    Alike most false [] (Parse.chain operand joins count left)
      (Parse.chain otherOperand joins otherCount left) := by
  induction covers generalizing left with
  | last => exact rested (.chain _ _ _ _) (.chain _ _ _ _)
  | turn covers ih =>
    have fewer := each.mono (Nat.le_succ _)
    unfold Parse.chain
    refine sees.bind fun more => ite (relax ?_) pure
    refine advance.after fun operator => slot.bind fun afterOperator => ?_
    exact fewer.bind fun right => ih fewer _

theorem unidentified (token : Token) :
    Alike most false [token] (Parse.unidentified token) (Parse.unidentified token) :=
  onFlag (fun _ _ => rfl) ((slot.bind fun _ => pure).hold [token]) (refuse rfl)

section

variable (alike : Rules.Alike most rules others)

include alike

theorem series (closing : Kind) :
    Alike most false [] (Parse.series rules closing) (Parse.series others closing) := by
  refine (entries alike.expression closing alike.covers).bind fun entries => ?_
  exact accept.bind fun _ => pure

theorem grouping : Alike most false [] (Parse.grouping rules) (Parse.grouping others) := by
  refine slot.bind fun afterOpen => alike.expression.bind fun first => ?_
  refine (groupRest alike.expression alike.covers).bind fun others => ?_
  exact slot.bind fun afterClose => pure

theorem array : Alike most false [] (Parse.array rules) (Parse.array others) :=
  slot.bind fun _ => (series alike _).bind fun _ => pure

theorem primary : Alike (most + 1) true [] (Parse.primary rules) (Parse.primary others) := by
  refine take fun token => ?_
  split
  case h_6 => exact (grouping alike).hold _
  case h_7 => exact (array alike).hold _
  case h_8 => exact (setCanPair.bind fun _ => pure).hold _
  case h_9 => exact (setCanPair.bind fun _ => pure).hold _
  case h_10 => exact (setCanPair.bind fun _ => pure).hold _
  case h_11 => exact unidentified token
  all_goals exact (slot.bind fun trailing => pure).hold _

theorem arguments (callee : Expr) :
    Alike most false [] (Parse.arguments rules callee) (Parse.arguments others callee) := by
  refine accept.bind fun called => ite ?_ pure
  refine slot.bind fun afterOpen => (series alike _).bind fun arguments => ?_
  exact slot.bind fun trailing => pure

theorem call : Alike (most + 1) true [] (Parse.call rules) (Parse.call others) := by
  refine (primary alike).after fun callee => (arguments alike callee).bind fun called => ?_
  exact accesses alike alike.covers called

theorem stepped : Alike (most + 1) true [] (Parse.stepped rules) (Parse.stepped others) := by
  refine (call alike).after fun operand => check.bind fun follows => ite ?_ pure
  exact advance.bind fun operator => slot.bind fun afterOperator => pure

theorem unary : Alike (most + 1) true [] (Parse.unary rules) (Parse.unary others) := by
  refine check.before fun prefixed => ite ?_ (stepped alike)
  refine advance.after fun operator => slot.bind fun afterOperator => ?_
  exact alike.unary.bind fun operand => pure

theorem binary (tiers : List Tier) :
    Alike (most + 1) true [] (Parse.binary rules tiers) (Parse.binary others tiers) := by
  induction tiers with
  | nil => exact unary alike
  | cons tier tighter ih =>
    unfold Parse.binary
    refine ih.after fun left => ?_
    cases tier.side with
    | left =>
      exact onFlag (fun _ _ => rfl) (chain (alike.binary tighter) _ alike.covers left) pure
    | right =>
      refine check.bind fun follows => ite ?_ pure
      refine advance.bind fun operator => slot.bind fun afterOperator => ?_
      exact (alike.binary (tier :: tighter)).bind fun right => pure

theorem ternary : Alike (most + 1) true [] (Parse.ternary rules) (Parse.ternary others) := by
  refine (binary alike _).after fun condition => accept.bind fun hooked => ite ?_ pure
  refine slot.bind fun afterHook => alike.ternary.bind fun whenTrue => ?_
  refine accept.bind fun _ => slot.bind fun afterColon => ?_
  exact alike.ternary.bind fun whenFalse => pure

theorem functionRest : Alike most false [] (Parse.functionRest rules) (Parse.functionRest others) := by
  refine slot.bind fun afterKeyword => alike.expression.bind fun signature => ?_
  refine slot.bind fun afterSignature => accept.bind fun isConstructor => ?_
  exact slot.bind fun trailing => pure

theorem lifetimeRest (operator : Token) :
    Alike most false [] (Parse.lifetimeRest rules operator) (Parse.lifetimeRest others operator) := by
  refine slot.bind fun afterOperator => alike.expression.bind fun operand => ?_
  exact slot.bind fun trailing => pure

theorem completed (opening : Expr) :
    Alike most false [] (Parse.completed rules opening) (Parse.completed others opening) := by
  unfold Parse.completed
  split
  · split
    · exact functionRest alike
    · exact lifetimeRest alike _
    · exact lifetimeRest alike _
    · exact pure
  · exact pure

theorem assignment : Alike (most + 1) true [] (Parse.assignment rules) (Parse.assignment others) := by
  refine (ternary alike).after fun opening => (completed alike opening).bind fun target => ?_
  refine check.bind fun follows => ite ?_ pure
  refine advance.bind fun operator => slot.bind fun afterOperator => ?_
  exact alike.assignment.bind fun value => pure

theorem expression : Alike (most + 1) true [] (Parse.expression rules) (Parse.expression others) := by
  refine setAllowUnidentified.before fun _ => (assignment alike).after fun expr => ?_
  exact setCanPair.bind fun _ => setAllowUnidentified.bind fun _ => pure

theorem expressionStatement :
    Alike (most + 1) true [] (Parse.expressionStatement rules) (Parse.expressionStatement others) :=
  (expression alike).after fun _ => accept.bind fun _ => pure

end

theorem statementsUntil {statement otherStatement : Parse Stmt}
    (each : Alike most true [] statement otherStatement) (ends : Kind → Bool)
    (covers : Covers most count otherCount) :
    Alike most false [] (Parse.statementsUntil statement ends count)
      (Parse.statementsUntil otherStatement ends otherCount) := by
  induction covers with
  | last => exact rested (.statementsUntil _ _ _) (.statementsUntil _ _ _)
  | turn covers ih =>
    have others := ih (each.mono (Nat.le_succ _))
    unfold Parse.statementsUntil
    refine sees.bind fun more => ite (relax ?_) pure
    exact each.after fun stmt => others.bind fun others => pure

theorem variableEnd (declared : Variable) {further otherFurther : Parse (Series Variable)}
    (alike : Alike most false [] further otherFurther) :
    Alike most false [] (Parse.variableEnd declared further)
      (Parse.variableEnd declared otherFurther) := by
  refine accept.bind fun more => slot.bind fun trailing => ite ?_ pure
  exact alike.bind fun others => pure

theorem notDeclared (expr : Expr) :
    Alike most false [] (Parse.notDeclared expr) (Parse.notDeclared expr) :=
  accept.bind fun _ => postpone.bind fun _ => pure

theorem variableThen {left : Nat} (alike : Rules.Alike most rules others) (keyword : Option Token)
    (afterKeyword : Trivia) {further otherFurther : Parse (Series Variable)}
    (later : Alike left false [] further otherFurther) (fewer : most ≤ left + 1) :
    Alike most true [] (Parse.variableThen rules keyword afterKeyword further)
      (Parse.variableThen others keyword afterKeyword otherFurther) := by
  have behind : ∀ target : Expr, Alike left false []
      (if target.isDeclarable then Parse.variableEnd ⟨target, keyword, afterKeyword⟩ further
        else Parse.notDeclared target)
      (if target.isDeclarable then Parse.variableEnd ⟨target, keyword, afterKeyword⟩ otherFurther
        else Parse.notDeclared target) :=
    fun target => ite (variableEnd _ later) (notDeclared target)
  exact alike.expression.bindTo behind fewer

theorem variableList (alike : Rules.Alike most rules others) (covers : Covers most count otherCount) :
    Alike most false [] (Parse.variableList rules count) (Parse.variableList others otherCount) := by
  induction covers with
  | last => exact rested (.variableList _ _) (.variableList _ _)
  | turn covers ih =>
    have fewer := alike.fewer
    unfold Parse.variableList
    refine check.bind fun closed => ite pure (check.bind fun repeated => ite (relax ?_) ?_)
    · refine advance.after fun keyword => slot.bind fun afterKeyword => ?_
      exact (variableThen fewer (some keyword) afterKeyword (ih fewer) (Nat.le_succ _)).relax
    · refine peek.bind fun kind => ?_
      split
      · exact pure
      · exact (variableThen alike none [] (ih fewer) (Nat.le_refl _)).relax
      · exact pure

section

variable (alike : Rules.Alike most rules others)

include alike

theorem declaration :
    Alike (most + 1) true [] (Parse.declaration rules) (Parse.declaration others) := by
  refine advance.after fun keyword => slot.bind fun afterKeyword => ?_
  refine (variableList alike alike.covers).bind fun declared => ?_
  exact accept.bind fun semicolon => pure

theorem defineRest : Alike most false [] (Parse.defineRest rules) (Parse.defineRest others) := by
  refine slot.bind fun afterKeyword => alike.expression.bind fun name => ?_
  exact (statementsUntil alike.statement _ alike.covers).bind fun body => pure

theorem blockRest : Alike most false [] (Parse.blockRest rules) (Parse.blockRest others) := by
  refine slot.bind fun afterOpen => ?_
  refine (statementsUntil alike.statement _ alike.covers).bind fun body => ?_
  exact accept.bind fun _ => accept.bind fun semicolon => pure

theorem conditionalRest :
    Alike most false [] (Parse.conditionalRest rules) (Parse.conditionalRest others) := by
  refine slot.bind fun afterKeyword => alike.expression.bind fun condition => ?_
  refine alike.statement.bind fun whenTrue => slot.bind fun between => ?_
  refine accept.bind fun otherwise => ite ?_ ?_
  · refine slot.bind fun afterElse => alike.statement.bind fun whenFalse => ?_
    exact accept.bind fun semicolon => pure
  · exact accept.bind fun semicolon => pure

theorem returnRest : Alike most false [] (Parse.returnRest rules) (Parse.returnRest others) := by
  refine check.bind fun closed => ite ?_ ?_
  · exact accept.bind fun semicolon => pure
  · exact alike.expression.bind fun value => accept.bind fun semicolon => pure

theorem doUntilRest : Alike most false [] (Parse.doUntilRest rules) (Parse.doUntilRest others) := by
  refine slot.bind fun afterKeyword => alike.statement.bind fun body => ?_
  refine slot.bind fun between => accept.bind fun _ => ?_
  exact alike.expression.bind fun condition => accept.bind fun semicolon => pure

theorem loopRest (keyword : Token) :
    Alike most false [] (Parse.loopRest rules keyword) (Parse.loopRest others keyword) := by
  refine slot.bind fun afterKeyword => alike.expression.bind fun condition => ?_
  exact alike.statement.bind fun body => accept.bind fun semicolon => pure

theorem branchRest (label : Option Expr) (afterKeyword : Trivia) :
    Alike most false [] (Parse.branchRest rules label afterKeyword)
      (Parse.branchRest others label afterKeyword) := by
  refine accept.bind fun _ => slot.bind fun afterColon => ?_
  exact (statementsUntil alike.statement _ alike.covers).bind fun body => pure

theorem branch : Alike (most + 1) true [] (Parse.branch rules) (Parse.branch others) := by
  refine take fun token => ?_
  split
  · refine hold (slot.bind fun afterKeyword => alike.expression.bind fun label => ?_) _
    exact branchRest alike (some label) afterKeyword
  · exact hold (slot.bind fun afterKeyword => branchRest alike none afterKeyword) _
  · exact refuse rfl

end

theorem branches (alike : Rules.Alike most rules others) (covers : Covers most count otherCount) :
    Alike most false [] (Parse.branches rules count) (Parse.branches others otherCount) := by
  induction covers with
  | last => exact rested (.branches _ _) (.branches _ _)
  | turn covers ih =>
    have fewer := alike.fewer
    unfold Parse.branches
    refine sees.bind fun more => ite (relax ?_) pure
    exact (branch fewer).after fun first => (ih fewer).bind fun others => pure

section

variable (alike : Rules.Alike most rules others)

include alike

theorem switchRest : Alike most false [] (Parse.switchRest rules) (Parse.switchRest others) := by
  refine slot.bind fun afterKeyword => alike.expression.bind fun subject => ?_
  refine accept.bind fun _ => slot.bind fun afterOpen => ?_
  refine (branches alike alike.covers).bind fun cases => ?_
  exact accept.bind fun _ => accept.bind fun semicolon => pure

theorem forStart : Alike most false [] (Parse.forStart rules) (Parse.forStart others) := by
  refine accept.bind fun none => ite pure (check.bind fun declares => ite ?_ ?_)
  · exact ((declaration alike).mono (Nat.le_succ _)).bind fun start => pure
  · exact alike.expression.bind fun expr => accept.bind fun semicolon => pure

theorem forCondition :
    Alike most false [] (Parse.forCondition rules) (Parse.forCondition others) :=
  accept.bind fun _ => ite pure (alike.expression.bind fun _ => pure)

theorem forIncrement :
    Alike most false [] (Parse.forIncrement rules) (Parse.forIncrement others) :=
  check.bind fun _ => ite pure (alike.expression.bind fun _ => pure)

theorem forRest : Alike most false [] (Parse.forRest rules) (Parse.forRest others) := by
  refine slot.bind fun afterKeyword => accept.bind fun _ => slot.bind fun afterOpen => ?_
  refine (forStart alike).bind fun start => slot.bind fun afterStart => ?_
  refine (forCondition alike).bind fun condition => accept.bind fun _ => slot.bind fun afterCondition => ?_
  refine (forIncrement alike).bind fun increment => accept.bind fun _ => slot.bind fun afterIncrement => ?_
  refine accept.bind fun _ => slot.bind fun afterClose => ?_
  exact alike.statement.bind fun body => accept.bind fun semicolon => pure

theorem enumerationRest :
    Alike most false [] (Parse.enumerationRest rules) (Parse.enumerationRest others) := by
  refine slot.bind fun afterKeyword => alike.expression.bind fun name => ?_
  refine accept.bind fun _ => slot.bind fun afterOpen => ?_
  exact (series alike _).bind fun members => accept.bind fun semicolon => pure

theorem opened (token : Token) :
    match Parse.opened rules token, Parse.opened others token with
    | some rest, some other => Alike most false [] rest other
    | none, none => True
    | _, _ => False := by
  unfold Parse.opened
  cases token.kind with
  | symbol mark =>
    cases mark with
    | leftBrace => exact blockRest alike
    | _ => exact trivial
  | keyword word =>
    cases word with
    | enumWord => exact enumerationRest alike
    | ifWord => exact conditionalRest alike
    | returnWord => exact returnRest alike
    | breakWord | exitWord => exact accept.bind fun semicolon => pure
    | doWord => exact doUntilRest alike
    | whileWord | withWord | repeatWord => exact loopRest alike token
    | switchWord => exact switchRest alike
    | forWord => exact forRest alike
    | _ => exact trivial
  | define => exact defineRest alike
  | lineComment | blockComment | regionBegin | regionEnd | macroLine => exact pure
  | _ => exact trivial

theorem statementAt (head : Option Token) :
    Alike (most + 1) true [] (Parse.statementAt rules head) (Parse.statementAt others head) := by
  cases head with
  | none => exact expressionStatement alike
  | some token =>
    refine ite (declaration alike) ?_
    have forms := opened alike token
    revert forms
    cases Parse.opened rules token <;> cases Parse.opened others token <;> intro forms
    · exact expressionStatement alike
    · exact forms.elim
    · exact forms.elim
    · exact advance.after fun _ => forms

theorem statement : Alike (most + 1) true [] (Parse.statement rules) (Parse.statement others) := by
  apply onHead
  intro head
  refine ⟨_, _, statementAt alike head, fun start next => ?_⟩
  rw [Parse.statement_run, Parse.statement_run, next]
  exact ⟨rfl, rfl⟩

end

theorem program {statement otherStatement : Parse Stmt}
    (each : Alike most true [] statement otherStatement) (covers : Covers most count otherCount) :
    Alike most false [] (Parse.program statement count) (Parse.program otherStatement otherCount) := by
  induction covers with
  | last => exact rested (.program _ _) (.program _ _)
  | turn covers ih =>
    have others := ih (each.mono (Nat.le_succ _))
    unfold Parse.program
    refine sees.bind fun more => ite (setCanPair.bind fun _ => relax ?_) pure
    refine each.after fun stmt => takeLeftovers.bind fun leftovers => ?_
    exact others.bind fun others => pure

end Alike

namespace Rules

theorem failAtEnd_empty : empty.FailAtEnd where
  statement := .throw
  expression := .throw
  assignment := .throw
  ternary := .throw
  binary _ := .throw
  unary := .throw
  call := .throw

theorem failAtEnd_next (rules : Rules) : rules.next.FailAtEnd where
  statement := .statement
  expression := .expression
  assignment := .assignment
  ternary := .ternary
  binary := .binary
  unary := .unary
  call := .call

theorem Alike.of_failAtEnd {rules others : Rules} (own : rules.FailAtEnd) (other : others.FailAtEnd) :
    Alike 0 rules others where
  enough := Nat.zero_le _
  enoughOther := Nat.zero_le _
  statement := .ended own.statement other.statement
  expression := .ended own.expression other.expression
  assignment := .ended own.assignment other.assignment
  ternary := .ended own.ternary other.ternary
  binary tiers := .ended (own.binary tiers) (other.binary tiers)
  unary := .ended own.unary other.unary
  call := .ended own.call other.call

theorem Alike.next {most : Nat} {rules others : Rules} (alike : Alike most rules others) :
    Alike (most + 1) rules.next others.next where
  enough := Nat.succ_le_succ alike.enough
  enoughOther := Nat.succ_le_succ alike.enoughOther
  statement := GmlLayout.Alike.statement alike
  expression := GmlLayout.Alike.expression alike
  assignment := GmlLayout.Alike.assignment alike
  ternary := GmlLayout.Alike.ternary alike
  binary := GmlLayout.Alike.binary alike
  unary := GmlLayout.Alike.unary alike
  call := GmlLayout.Alike.call alike

end Rules

end GmlLayout
