import GmlLayout.Proofs.Grammar.Uniform

/-!
Every rule of the grammar is uniform in its tokens, given that the rules it refers back to are. So a
program read from replaced tokens is the program read from the original ones, with its tokens replaced.
-/

namespace GmlLayout

variable {change : Token → Token}

structure Rules.Uniform (change : Token → Token) (rules : Rules) : Prop where
  statement : GmlLayout.Uniform change (Stmt.mapTokens change) rules.statement rules.statement
  expression : GmlLayout.Uniform change (Expr.mapTokens change) rules.expression rules.expression
  assignment : GmlLayout.Uniform change (Expr.mapTokens change) rules.assignment rules.assignment
  ternary : GmlLayout.Uniform change (Expr.mapTokens change) rules.ternary rules.ternary
  binary : ∀ tiers,
    GmlLayout.Uniform change (Expr.mapTokens change) (rules.binary tiers) (rules.binary tiers)
  unary : GmlLayout.Uniform change (Expr.mapTokens change) rules.unary rules.unary
  call : GmlLayout.Uniform change (Expr.mapTokens change) rules.call rules.call

theorem Rules.uniform_empty : Rules.empty.Uniform change where
  statement := Uniform.throw rfl
  expression := Uniform.throw rfl
  assignment := Uniform.throw rfl
  ternary := Uniform.throw rfl
  binary _ := Uniform.throw rfl
  unary := Uniform.throw rfl
  call := Uniform.throw rfl

@[simp] theorem Expr.isDeclarable_mapTokens (expr : Expr) :
    (expr.mapTokens change).isDeclarable = expr.isDeclarable := by
  cases expr <;> simp [mapTokens, isDeclarable]

namespace Uniform

variable (keepsKind : ∀ token, (change token).kind = token.kind) {rules : Rules}
  (uniform : rules.Uniform change)

section

include keepsKind

theorem entries {entry : Parse Expr} (each : Uniform change (Expr.mapTokens change) entry entry)
    (closing : Kind) (count : Nat) :
    Uniform change (Series.mapTokens change) (Parse.entries entry closing count)
      (Parse.entries entry closing count) := by
  induction count with
  | zero => exact throw rfl
  | succ left ih =>
    unfold Parse.entries
    refine (check keepsKind).bind fun closed => ite (pure rfl) ?_
    refine each.bind fun value => (accept keepsKind).bind fun more => ?_
    refine (slot keepsKind).bind fun trailing => ite ?_ (pure rfl)
    exact ih.bind fun others => pure rfl

theorem groupRest {expression : Parse Expr}
    (each : Uniform change (Expr.mapTokens change) expression expression) (count : Nat) :
    Uniform change (Expr.mapList change) (Parse.groupRest expression count) (Parse.groupRest expression count) := by
  induction count with
  | zero => exact throw rfl
  | succ left ih =>
    unfold Parse.groupRest
    refine (accept keepsKind).bind fun closed => ite (pure rfl) ?_
    exact each.bind fun expr => ih.bind fun others => pure rfl

theorem indices {expression : Parse Expr}
    (each : Uniform change (Expr.mapTokens change) expression expression) (count : Nat) :
    Uniform change (Expr.mapIndices change) (Parse.indices expression count) (Parse.indices expression count) := by
  induction count with
  | zero => exact pure rfl
  | succ left ih =>
    unfold Parse.indices
    refine (sees keepsKind).bind fun more => ite ?_ (pure rfl)
    refine (slot keepsKind).bind fun before => each.bind fun index => ?_
    refine (accept keepsKind).bind fun more => ite ?_ (pure rfl)
    exact ih.bind fun others => pure rfl

theorem chain {operand : Parse Expr}
    (each : Uniform change (Expr.mapTokens change) operand operand) (joins : Kind → Bool) (count : Nat)
    (left : Expr) :
    Uniform change (Expr.mapTokens change) (Parse.chain operand joins count left)
      (Parse.chain operand joins count (left.mapTokens change)) := by
  induction count generalizing left with
  | zero => exact pure rfl
  | succ count ih =>
    unfold Parse.chain
    refine (sees keepsKind).bind fun more => ite ?_ (pure rfl)
    refine advance.bind fun operator => (slot keepsKind).bind fun afterOperator => ?_
    exact each.bind fun right => ih (.binary left operator afterOperator right)

theorem unidentified (token : Token) :
    Uniform change (Expr.mapTokens change) (Parse.unidentified token) (Parse.unidentified (change token)) := by
  unfold Parse.unidentified
  refine get.bind fun reader => ?_
  change Uniform change _ (if reader.allowUnidentified = true then _ else _)
    (if reader.allowUnidentified = true then _ else _)
  exact ite ((slot keepsKind).bind fun trailing => pure rfl) (throw rfl)

end

section

include keepsKind uniform

theorem series (closing : Kind) :
    Uniform change (Series.mapTokens change) (Parse.series rules closing) (Parse.series rules closing) := by
  refine (entries keepsKind uniform.expression _ _).bind fun entries => ?_
  exact (accept keepsKind).bind fun _ => pure rfl

theorem grouping : Uniform change (Expr.mapTokens change) (Parse.grouping rules) (Parse.grouping rules) := by
  refine (slot keepsKind).bind fun afterOpen => uniform.expression.bind fun first => ?_
  refine (groupRest keepsKind uniform.expression _).bind fun others => ?_
  exact (slot keepsKind).bind fun afterClose => pure rfl

theorem array : Uniform change (Expr.mapTokens change) (Parse.array rules) (Parse.array rules) := by
  refine (slot keepsKind).bind fun afterOpen => ?_
  exact (series keepsKind uniform _).bind fun elements => pure rfl

theorem primary : Uniform change (Expr.mapTokens change) (Parse.primary rules) (Parse.primary rules) := by
  refine advance.bind fun token => ?_
  rw [keepsKind]
  split
  case h_6 => exact grouping keepsKind uniform
  case h_7 => exact array keepsKind uniform
  case h_8 => exact setCanPair.bind fun _ => pure rfl
  case h_9 => exact setCanPair.bind fun _ => pure rfl
  case h_10 => exact setCanPair.bind fun _ => pure rfl
  case h_11 => exact unidentified keepsKind token
  all_goals exact (slot keepsKind).bind fun after => pure rfl

theorem accesses (count : Nat) (owner : Expr) :
    Uniform change (Expr.mapTokens change) (Parse.accesses rules count owner)
      (Parse.accesses rules count (owner.mapTokens change)) := by
  induction count generalizing owner with
  | zero => exact pure rfl
  | succ left ih =>
    unfold Parse.accesses
    refine (sees keepsKind).bind fun dotted => ite ?_ ?_
    · refine advance.bind fun _ => (slot keepsKind).bind fun afterDot => uniform.call.bind fun member => ?_
      exact (slot keepsKind).bind fun trailing => ih (.dotted owner afterDot member trailing)
    · refine (sees keepsKind).bind fun indexed => ite ?_ (pure rfl)
      refine advance.bind fun accessor => ?_
      refine (indices keepsKind uniform.expression _).bind fun indices => ?_
      refine (accept keepsKind).bind fun _ => (slot keepsKind).bind fun trailing => ?_
      exact ih (.access owner accessor indices trailing)

theorem arguments (callee : Expr) :
    Uniform change (Expr.mapTokens change) (Parse.arguments rules callee)
      (Parse.arguments rules (callee.mapTokens change)) := by
  refine (accept keepsKind).bind fun called => ite ?_ (pure rfl)
  refine (slot keepsKind).bind fun afterOpen => (series keepsKind uniform _).bind fun arguments => ?_
  exact (slot keepsKind).bind fun trailing => pure rfl

theorem call : Uniform change (Expr.mapTokens change) (Parse.call rules) (Parse.call rules) := by
  refine (primary keepsKind uniform).bind fun callee => ?_
  refine (arguments keepsKind uniform callee).bind fun called => ?_
  exact accesses keepsKind uniform _ called

theorem stepped : Uniform change (Expr.mapTokens change) (Parse.stepped rules) (Parse.stepped rules) := by
  refine (call keepsKind uniform).bind fun operand => (check keepsKind).bind fun follows => ?_
  refine ite ?_ (pure rfl)
  exact advance.bind fun operator => (slot keepsKind).bind fun afterOperator => pure rfl

theorem unary : Uniform change (Expr.mapTokens change) (Parse.unary rules) (Parse.unary rules) := by
  refine (check keepsKind).bind fun prefixed => ite ?_ (stepped keepsKind uniform)
  refine advance.bind fun operator => (slot keepsKind).bind fun afterOperator => ?_
  exact uniform.unary.bind fun operand => pure rfl

theorem binary (tiers : List Tier) :
    Uniform change (Expr.mapTokens change) (Parse.binary rules tiers) (Parse.binary rules tiers) := by
  induction tiers with
  | nil => exact unary keepsKind uniform
  | cons tier tighter ih =>
    unfold Parse.binary
    refine ih.bind fun left => ?_
    cases tier.side with
    | left =>
      refine ifCanPair ?_ (pure rfl)
      exact chain keepsKind (uniform.binary tighter) _ _ left
    | right =>
      refine (check keepsKind).bind fun follows => ite ?_ (pure rfl)
      refine advance.bind fun operator => (slot keepsKind).bind fun afterOperator => ?_
      exact (uniform.binary (tier :: tighter)).bind fun right => pure rfl

theorem ternary : Uniform change (Expr.mapTokens change) (Parse.ternary rules) (Parse.ternary rules) := by
  refine (binary keepsKind uniform _).bind fun condition => ?_
  refine (accept keepsKind).bind fun hooked => ite ?_ (pure rfl)
  refine (slot keepsKind).bind fun afterHook => uniform.ternary.bind fun whenTrue => ?_
  refine (accept keepsKind).bind fun _ => (slot keepsKind).bind fun afterColon => ?_
  exact uniform.ternary.bind fun whenFalse => pure rfl

theorem functionRest :
    Uniform change (Expr.mapTokens change) (Parse.functionRest rules) (Parse.functionRest rules) := by
  refine (slot keepsKind).bind fun afterKeyword => uniform.expression.bind fun signature => ?_
  refine (slot keepsKind).bind fun afterSignature => (accept keepsKind).bind fun isConstructor => ?_
  exact (slot keepsKind).bind fun trailing => pure rfl

theorem lifetimeRest (operator : Token) :
    Uniform change (Expr.mapTokens change) (Parse.lifetimeRest rules operator)
      (Parse.lifetimeRest rules (change operator)) := by
  refine (slot keepsKind).bind fun afterOperator => uniform.expression.bind fun operand => ?_
  exact (slot keepsKind).bind fun trailing => pure rfl

theorem completed (opening : Expr) :
    Uniform change (Expr.mapTokens change) (Parse.completed rules opening)
      (Parse.completed rules (opening.mapTokens change)) := by
  cases opening with
  | unidentified token trailing =>
    simp only [Expr.mapTokens, Parse.completed, keepsKind]
    split
    · exact functionRest keepsKind uniform
    · exact lifetimeRest keepsKind uniform token
    · exact lifetimeRest keepsKind uniform token
    · exact pure rfl
  | _ =>
    simp only [Expr.mapTokens, Parse.completed]
    exact pure rfl

theorem assignment :
    Uniform change (Expr.mapTokens change) (Parse.assignment rules) (Parse.assignment rules) := by
  refine (ternary keepsKind uniform).bind fun opening => ?_
  refine (completed keepsKind uniform opening).bind fun target => ?_
  refine (check keepsKind).bind fun follows => ite ?_ (pure rfl)
  refine advance.bind fun operator => (slot keepsKind).bind fun afterOperator => ?_
  exact uniform.assignment.bind fun value => pure rfl

theorem expression :
    Uniform change (Expr.mapTokens change) (Parse.expression rules) (Parse.expression rules) := by
  refine setAllowUnidentified.bind fun _ => (assignment keepsKind uniform).bind fun expr => ?_
  exact setCanPair.bind fun _ => setAllowUnidentified.bind fun _ => pure rfl

theorem expressionStatement :
    Uniform change (Stmt.mapTokens change) (Parse.expressionStatement rules)
      (Parse.expressionStatement rules) := by
  refine (expression keepsKind uniform).bind fun expr => ?_
  exact (accept keepsKind).bind fun semicolon => pure rfl

end

section

include keepsKind

theorem statementsUntil {statement : Parse Stmt}
    (each : Uniform change (Stmt.mapTokens change) statement statement) (ends : Kind → Bool)
    (count : Nat) :
    Uniform change (Stmt.mapList change) (Parse.statementsUntil statement ends count)
      (Parse.statementsUntil statement ends count) := by
  induction count with
  | zero => exact pure rfl
  | succ left ih =>
    unfold Parse.statementsUntil
    refine (sees keepsKind).bind fun more => ite ?_ (pure rfl)
    exact each.bind fun stmt => ih.bind fun others => pure rfl

theorem variableEnd (declared : Variable) {others : Parse (Series Variable)}
    (further : Uniform change (Variable.mapSeries change) others others) :
    Uniform change (Variable.mapSeries change) (Parse.variableEnd declared others)
      (Parse.variableEnd (declared.mapTokens change) others) := by
  refine (accept keepsKind).bind fun more => (slot keepsKind).bind fun trailing => ite ?_ (pure rfl)
  exact further.bind fun others => pure rfl

theorem notDeclared (expr : Expr) :
    Uniform change (Variable.mapSeries change) (Parse.notDeclared expr)
      (Parse.notDeclared (expr.mapTokens change)) := by
  refine (accept keepsKind).bind fun semicolon => ?_
  exact (@postpone change (.expression expr semicolon)).bind fun _ => pure rfl

end

section

include keepsKind uniform

theorem variableThen (keyword : Option Token) (afterKeyword : Trivia) {others : Parse (Series Variable)}
    (further : Uniform change (Variable.mapSeries change) others others) :
    Uniform change (Variable.mapSeries change) (Parse.variableThen rules keyword afterKeyword others)
      (Parse.variableThen rules (keyword.map change) (afterKeyword.map change) others) := by
  refine uniform.expression.bind fun target => ?_
  rw [Expr.isDeclarable_mapTokens]
  apply ite
  · exact variableEnd keepsKind ⟨target, keyword, afterKeyword⟩ further
  · exact notDeclared keepsKind target

theorem variableList (count : Nat) :
    Uniform change (Variable.mapSeries change) (Parse.variableList rules count)
      (Parse.variableList rules count) := by
  induction count with
  | zero => exact pure rfl
  | succ left ih =>
    unfold Parse.variableList
    refine (check keepsKind).bind fun closed => ite (pure rfl) ?_
    refine (check keepsKind).bind fun repeated => ite ?_ ?_
    · refine advance.bind fun keyword => (slot keepsKind).bind fun afterKeyword => ?_
      exact variableThen keepsKind uniform (some keyword) afterKeyword ih
    · refine (peek keepsKind).bind fun kind => ?_
      simp only [id_eq]
      split
      · exact pure rfl
      · exact variableThen keepsKind uniform none [] ih
      · exact pure rfl

theorem declaration :
    Uniform change (Stmt.mapTokens change) (Parse.declaration rules) (Parse.declaration rules) := by
  refine advance.bind fun keyword => (slot keepsKind).bind fun afterKeyword => ?_
  refine (variableList keepsKind uniform _).bind fun declared => ?_
  exact (accept keepsKind).bind fun semicolon => pure rfl

theorem defineRest :
    Uniform change (Stmt.mapTokens change) (Parse.defineRest rules) (Parse.defineRest rules) := by
  refine (slot keepsKind).bind fun afterKeyword => uniform.expression.bind fun name => ?_
  exact (statementsUntil keepsKind uniform.statement _ _).bind fun body => pure rfl

theorem blockRest :
    Uniform change (Stmt.mapTokens change) (Parse.blockRest rules) (Parse.blockRest rules) := by
  refine (slot keepsKind).bind fun afterOpen => ?_
  refine (statementsUntil keepsKind uniform.statement _ _).bind fun body => ?_
  exact (accept keepsKind).bind fun _ => (accept keepsKind).bind fun semicolon => pure rfl

theorem conditionalRest :
    Uniform change (Stmt.mapTokens change) (Parse.conditionalRest rules)
      (Parse.conditionalRest rules) := by
  refine (slot keepsKind).bind fun afterKeyword => uniform.expression.bind fun condition => ?_
  refine uniform.statement.bind fun whenTrue => (slot keepsKind).bind fun between => ?_
  refine (accept keepsKind).bind fun otherwise => ite ?_ ?_
  · refine (slot keepsKind).bind fun afterElse => uniform.statement.bind fun whenFalse => ?_
    exact (accept keepsKind).bind fun semicolon => pure rfl
  · exact (accept keepsKind).bind fun semicolon => pure rfl

theorem returnRest :
    Uniform change (Stmt.mapTokens change) (Parse.returnRest rules) (Parse.returnRest rules) := by
  refine (check keepsKind).bind fun closed => ite ?_ ?_
  · exact (accept keepsKind).bind fun semicolon => pure rfl
  · refine uniform.expression.bind fun value => ?_
    exact (accept keepsKind).bind fun semicolon => pure rfl

theorem doUntilRest :
    Uniform change (Stmt.mapTokens change) (Parse.doUntilRest rules) (Parse.doUntilRest rules) := by
  refine (slot keepsKind).bind fun afterKeyword => uniform.statement.bind fun body => ?_
  refine (slot keepsKind).bind fun between => (accept keepsKind).bind fun _ => ?_
  refine uniform.expression.bind fun condition => ?_
  exact (accept keepsKind).bind fun semicolon => pure rfl

theorem loopRest (keyword : Token) :
    Uniform change (Stmt.mapTokens change) (Parse.loopRest rules keyword)
      (Parse.loopRest rules (change keyword)) := by
  refine (slot keepsKind).bind fun afterKeyword => uniform.expression.bind fun condition => ?_
  refine uniform.statement.bind fun body => ?_
  exact (accept keepsKind).bind fun semicolon => pure rfl

theorem branchRest (label : Option Expr) (afterKeyword : Trivia) :
    Uniform change (Stmt.mapCase change) (Parse.branchRest rules label afterKeyword)
      (Parse.branchRest rules (label.map (·.mapTokens change)) (afterKeyword.map change)) := by
  refine (accept keepsKind).bind fun _ => (slot keepsKind).bind fun afterColon => ?_
  exact (statementsUntil keepsKind uniform.statement _ _).bind fun body => pure rfl

theorem branch : Uniform change (Stmt.mapCase change) (Parse.branch rules) (Parse.branch rules) := by
  refine advance.bind fun token => ?_
  rw [keepsKind]
  split
  · refine (slot keepsKind).bind fun afterKeyword => uniform.expression.bind fun label => ?_
    exact branchRest keepsKind uniform (some label) afterKeyword
  · refine (slot keepsKind).bind fun afterKeyword => ?_
    exact branchRest keepsKind uniform none afterKeyword
  · exact throw rfl

theorem branches (count : Nat) :
    Uniform change (Stmt.mapCases change) (Parse.branches rules count) (Parse.branches rules count) := by
  induction count with
  | zero => exact pure rfl
  | succ left ih =>
    unfold Parse.branches
    refine (sees keepsKind).bind fun more => ite ?_ (pure rfl)
    exact (branch keepsKind uniform).bind fun first => ih.bind fun others => pure rfl

theorem switchRest :
    Uniform change (Stmt.mapTokens change) (Parse.switchRest rules) (Parse.switchRest rules) := by
  refine (slot keepsKind).bind fun afterKeyword => uniform.expression.bind fun subject => ?_
  refine (accept keepsKind).bind fun _ => (slot keepsKind).bind fun afterOpen => ?_
  refine (branches keepsKind uniform _).bind fun cases => ?_
  exact (accept keepsKind).bind fun _ => (accept keepsKind).bind fun semicolon => pure rfl

theorem forStart :
    Uniform change (Option.map (Stmt.mapTokens change)) (Parse.forStart rules) (Parse.forStart rules) := by
  refine (accept keepsKind).bind fun none => ite (pure rfl) ?_
  refine (check keepsKind).bind fun declares => ite ?_ ?_
  · exact (declaration keepsKind uniform).bind fun start => pure rfl
  · refine uniform.expression.bind fun expr => ?_
    exact (accept keepsKind).bind fun semicolon => pure rfl

theorem forCondition :
    Uniform change (Option.map (Expr.mapTokens change)) (Parse.forCondition rules)
      (Parse.forCondition rules) := by
  refine (accept keepsKind).bind fun none => ite (pure rfl) ?_
  exact uniform.expression.bind fun condition => pure rfl

theorem forIncrement :
    Uniform change (Option.map (Expr.mapTokens change)) (Parse.forIncrement rules)
      (Parse.forIncrement rules) := by
  refine (check keepsKind).bind fun none => ite (pure rfl) ?_
  exact uniform.expression.bind fun increment => pure rfl

theorem forRest :
    Uniform change (Stmt.mapTokens change) (Parse.forRest rules) (Parse.forRest rules) := by
  refine (slot keepsKind).bind fun afterKeyword => (accept keepsKind).bind fun _ => ?_
  refine (slot keepsKind).bind fun afterOpen => (forStart keepsKind uniform).bind fun start => ?_
  refine (slot keepsKind).bind fun afterStart => (forCondition keepsKind uniform).bind fun condition => ?_
  refine (accept keepsKind).bind fun _ => (slot keepsKind).bind fun afterCondition => ?_
  refine (forIncrement keepsKind uniform).bind fun increment => (accept keepsKind).bind fun _ => ?_
  refine (slot keepsKind).bind fun afterIncrement => (accept keepsKind).bind fun _ => ?_
  refine (slot keepsKind).bind fun afterClose => uniform.statement.bind fun body => ?_
  refine (accept keepsKind).bind fun semicolon => ?_
  cases start with
  | none => exact pure rfl
  | some start => exact pure rfl

theorem enumerationRest :
    Uniform change (Stmt.mapTokens change) (Parse.enumerationRest rules)
      (Parse.enumerationRest rules) := by
  refine (slot keepsKind).bind fun afterKeyword => uniform.expression.bind fun name => ?_
  refine (accept keepsKind).bind fun _ => (slot keepsKind).bind fun afterOpen => ?_
  refine (series keepsKind uniform _).bind fun members => ?_
  exact (accept keepsKind).bind fun semicolon => pure rfl

theorem opened (token : Token) :
    match Parse.opened rules token, Parse.opened rules (change token) with
    | some rest, some other => Uniform change (Stmt.mapTokens change) rest other
    | none, none => True
    | _, _ => False := by
  unfold Parse.opened
  rw [keepsKind]
  cases token.kind with
  | symbol mark =>
    cases mark with
    | leftBrace => exact blockRest keepsKind uniform
    | _ => exact trivial
  | keyword word =>
    cases word with
    | enumWord => exact enumerationRest keepsKind uniform
    | ifWord => exact conditionalRest keepsKind uniform
    | returnWord => exact returnRest keepsKind uniform
    | breakWord => exact (accept keepsKind).bind fun semicolon => pure rfl
    | exitWord => exact (accept keepsKind).bind fun semicolon => pure rfl
    | doWord => exact doUntilRest keepsKind uniform
    | whileWord => exact loopRest keepsKind uniform token
    | withWord => exact loopRest keepsKind uniform token
    | repeatWord => exact loopRest keepsKind uniform token
    | switchWord => exact switchRest keepsKind uniform
    | forWord => exact forRest keepsKind uniform
    | _ => exact trivial
  | define => exact defineRest keepsKind uniform
  | lineComment | blockComment | regionBegin | regionEnd | macroLine => exact pure rfl
  | _ => exact trivial

theorem statement :
    Uniform change (Stmt.mapTokens change) (Parse.statement rules) (Parse.statement rules) := by
  refine get.bind fun reader => ?_
  cases shape : reader.rest with
  | nil =>
    simp only [Reader.mapTokens, shape, List.map_nil, List.head?_nil]
    exact expressionStatement keepsKind uniform
  | cons token rest =>
    simp only [Reader.mapTokens, shape, List.map_cons, List.head?_cons, keepsKind]
    apply ite
    · exact declaration keepsKind uniform
    · have forms := opened keepsKind uniform token
      revert forms
      cases Parse.opened rules token <;> cases Parse.opened rules (change token) <;> intro forms
      · exact expressionStatement keepsKind uniform
      · exact forms.elim
      · exact forms.elim
      · exact advance.bind fun _ => forms

end

end Uniform

namespace Rules

variable (keepsKind : ∀ token, (change token).kind = token.kind)

include keepsKind

theorem Uniform.next {rules : Rules} (uniform : rules.Uniform change) : rules.next.Uniform change where
  statement := GmlLayout.Uniform.statement keepsKind uniform
  expression := GmlLayout.Uniform.expression keepsKind uniform
  assignment := GmlLayout.Uniform.assignment keepsKind uniform
  ternary := GmlLayout.Uniform.ternary keepsKind uniform
  binary := GmlLayout.Uniform.binary keepsKind uniform
  unary := GmlLayout.Uniform.unary keepsKind uniform
  call := GmlLayout.Uniform.call keepsKind uniform

theorem uniform_upTo (bound : Nat) : (upTo bound).Uniform change := by
  induction bound with
  | zero => exact uniform_empty
  | succ bound ih => exact Uniform.next keepsKind ih

end Rules

variable (keepsKind : ∀ token, (change token).kind = token.kind)

include keepsKind

theorem Uniform.program {statement : Parse Stmt}
    (each : Uniform change (Stmt.mapTokens change) statement statement) (count : Nat) :
    Uniform change (Stmt.mapList change) (Parse.program statement count)
      (Parse.program statement count) := by
  induction count with
  | zero => exact pure rfl
  | succ left ih =>
    unfold Parse.program
    refine (sees keepsKind).bind fun more => ite ?_ (pure rfl)
    refine setCanPair.bind fun _ => each.bind fun stmt => takeLeftovers.bind fun leftovers => ?_
    exact ih.bind fun others => pure (by simp [Stmt.mapList_eq_map])

/-- A replacement of tokens that keeps their kinds may be made before a parse or after it. -/
theorem parseTokens_map (tokens : List Token) :
    parseTokens (tokens.map change) = mapOutcome change (Stmt.mapList change) (parseTokens tokens) := by
  unfold parseTokens
  rw [List.length_map]
  exact Uniform.program keepsKind (Rules.uniform_upTo keepsKind _).statement _ { rest := tokens }

end GmlLayout
