import GmlLayout.Proofs.Grammar.Yield
import GmlLayout.Proofs.Tree.Parts

/-!
What holds of every expression that the grammar builds. A judgement says what a parser returns and where it
stops, that the tokens to come are the last ones of the given tokens, and that every expression in the
statements kept for later has a given property. Statements only put expressions together, so they inherit the
property from the rule for expressions, whatever the property is.
-/

namespace GmlLayout

theorem listParts_append (first second : List Stmt) :
    Stmt.listParts (first ++ second) = Stmt.listParts first ++ Stmt.listParts second := by
  induction first with
  | nil => rfl
  | cons stmt first ih => simp [Stmt.listParts, ih]

variable (tokens : List Token) (each : Expr → Prop)

/-- What is to come ends the tokens, and the expressions of the statements kept for later are good. -/
def Reader.Gathered (reader : Reader) : Prop :=
  reader.rest <:+ tokens ∧ Expr.All each (Stmt.listParts reader.leftovers)

/-- From `start`, a success of the parser gives a value, and a state, that are `good`. -/
def Gathers {α : Type} (parser : Parse α) (start : Reader) (good : α → Reader → Prop) : Prop :=
  start.Gathered tokens each → ∀ value stop, parser start = .ok value stop →
    stop.Gathered tokens each ∧ good value stop

variable {tokens each}

namespace Gathers

variable {α β : Type} {start : Reader}

theorem bind {parser : Parse α} {next : α → Parse β} {middle : α → Reader → Prop}
    {good : β → Reader → Prop} (front : Gathers tokens each parser start middle)
    (back : ∀ value stop, middle value stop → Gathers tokens each (next value) stop good) :
    Gathers tokens each (parser >>= next) start good := by
  intro gathered value stop done
  obtain ⟨first, between, ran, rest⟩ := bind_eq_ok done
  obtain ⟨gathered, known⟩ := front gathered first between ran
  exact back first between known gathered value stop rest

theorem weaken {parser : Parse α} {good better : α → Reader → Prop}
    (gathers : Gathers tokens each parser start better)
    (implies : ∀ value stop, better value stop → good value stop) :
    Gathers tokens each parser start good := by
  intro gathered value stop done
  obtain ⟨gathered, known⟩ := gathers gathered value stop done
  exact ⟨gathered, implies value stop known⟩

theorem assuming {parser : Parse α} {good : α → Reader → Prop}
    (gathers : start.rest <:+ tokens → Gathers tokens each parser start good) :
    Gathers tokens each parser start good :=
  fun gathered => gathers gathered.1 gathered

theorem pure {value : α} {good : α → Reader → Prop} (known : good value start) :
    Gathers tokens each (Pure.pure value) start good := by
  intro gathered result stop done
  cases done
  exact ⟨gathered, known⟩

theorem throw {cause : ParseError} {good : α → Reader → Prop} :
    Gathers tokens each (MonadExcept.throw cause) start good := by
  intro _ result stop done
  cases done

theorem ite {test : Prop} [Decidable test] {first second : Parse α} {good : α → Reader → Prop}
    (yes : Gathers tokens each first start good) (no : Gathers tokens each second start good) :
    Gathers tokens each (if test then first else second) start good := by
  split
  · exact yes
  · exact no

theorem get : Gathers tokens each (MonadState.get : Parse Reader) start
    fun reader stop => reader = start ∧ stop = start := by
  intro gathered value stop done
  cases done
  exact ⟨gathered, rfl, rfl⟩

theorem setCanPair {canPair : Bool} : Gathers tokens each (Parse.setCanPair canPair) start
    fun _ stop => stop = { start with canPair := canPair } := by
  intro gathered value stop done
  cases done
  exact ⟨gathered, rfl⟩

theorem setAllowUnidentified {allowed : Bool} :
    Gathers tokens each (Parse.setAllowUnidentified allowed) start
      fun _ stop => stop = { start with allowUnidentified := allowed } := by
  intro gathered value stop done
  cases done
  exact ⟨gathered, rfl⟩

theorem peek : Gathers tokens each Parse.peek start fun _ stop => stop = start := by
  intro gathered value stop done
  cases done
  exact ⟨gathered, rfl⟩

theorem sees {accepted : Kind → Bool} : Gathers tokens each (Parse.sees accepted) start
    fun seen stop => stop = start ∧
      (seen = true → ∃ token rest, start.rest = token :: rest ∧ accepted token.kind = true) := by
  intro gathered value stop done
  cases done
  exact ⟨gathered, rfl, Parse.head_of_any⟩

theorem check {accepted : Kind → Bool} : Gathers tokens each (Parse.check accepted) start
    fun seen stop => stop = start ∧ (seen = true → start.canPair = true ∧
      ∃ token rest, start.rest = token :: rest ∧ accepted token.kind = true) := by
  intro gathered value stop done
  rw [Parse.check_run] at done
  cases done
  refine ⟨gathered, rfl, fun seen => ?_⟩
  obtain ⟨pairs, any⟩ := Bool.and_eq_true_iff.mp seen
  exact ⟨pairs, Parse.head_of_any any⟩

theorem advance : Gathers tokens each Parse.advance start
    fun token stop => start.rest = token :: stop.rest ∧ stop.canPair = start.canPair := by
  intro gathered token stop done
  obtain ⟨rest, shape, rfl⟩ := Parse.advance_run done
  rw [Reader.Gathered, shape] at gathered
  exact ⟨⟨(List.suffix_cons _ _).trans gathered.1, gathered.2⟩, shape, rfl⟩

theorem ifSees {accepted : Kind → Bool} {next : Token → Parse α} {other : Parse α}
    {good : α → Reader → Prop}
    (yes : ∀ token stop, accepted token.kind = true → start.rest = token :: stop.rest →
      stop.canPair = start.canPair → Gathers tokens each (next token) stop good)
    (no : Gathers tokens each other start good) :
    Gathers tokens each (do if ← Parse.sees accepted then Parse.advance >>= next else other) start good := by
  refine sees.bind fun seen stop ⟨same, found⟩ => ?_
  subst same
  cases seen with
  | true =>
    obtain ⟨token, rest, shape, fits⟩ := found rfl
    refine advance.bind fun taken stop ⟨shape', pairs⟩ => ?_
    rw [shape] at shape'
    cases shape'
    exact yes token stop fits shape pairs
  | false => exact no

theorem ifCheck {accepted : Kind → Bool} {next : Token → Parse α} {other : Parse α}
    {good : α → Reader → Prop}
    (yes : ∀ token stop, accepted token.kind = true → start.canPair = true →
      Gathers tokens each (next token) stop good)
    (no : Gathers tokens each other start good) :
    Gathers tokens each (do if ← Parse.check accepted then Parse.advance >>= next else other) start good := by
  refine check.bind fun seen stop ⟨same, found⟩ => ?_
  subst same
  cases seen with
  | true =>
    obtain ⟨pairs, token, rest, shape, fits⟩ := found rfl
    refine advance.bind fun taken stop ⟨shape', _⟩ => ?_
    rw [shape] at shape'
    cases shape'
    exact yes token stop fits pairs
  | false => exact no

theorem slot : Gathers tokens each Parse.slot start fun _ stop => stop.canPair = start.canPair ∧
    ∀ token rest, stop.rest = token :: rest → token.kind.isTrivia = false := by
  intro gathered slot stop done
  cases done
  refine ⟨⟨(List.dropWhile_suffix _).trans gathered.1, gathered.2⟩, rfl, fun token rest shape => ?_⟩
  have head := List.head?_dropWhile_not (fun token : Token => token.kind.isTrivia) start.rest
  dsimp only at shape
  rw [shape] at head
  exact head

/-- Where no token is accepted nothing changes, and one is accepted only while pairing is on. -/
theorem accept {kind : Kind} : Gathers tokens each (Parse.accept kind) start
    fun taken stop => (taken = false → stop = start) ∧ (taken = true → start.canPair = true) := by
  refine check.bind fun seen stop ⟨same, pairs⟩ => ?_
  cases seen with
  | true => exact advance.bind fun _ _ _ => pure ⟨(fun refused => nomatch refused), fun _ => (pairs rfl).1⟩
  | false => exact pure ⟨fun _ => same, fun taken => nomatch taken⟩

theorem postpone {stmt : Stmt} (kept : Expr.All each stmt.parts) :
    Gathers tokens each (Parse.postpone stmt) start fun _ _ => True := by
  intro gathered value stop done
  cases done
  refine ⟨⟨gathered.1, ?_⟩, trivial⟩
  rw [listParts_append]
  exact gathered.2.append (kept.append .nil)

theorem takeLeftovers : Gathers tokens each Parse.takeLeftovers start
    fun stmts _ => Expr.All each (Stmt.listParts stmts) := by
  intro gathered value stop done
  cases done
  exact ⟨⟨gathered.1, .nil⟩, gathered.2⟩

end Gathers

variable (tokens each)

def GathersExpr (parser : Parse Expr) : Prop :=
  ∀ start, Gathers tokens each parser start fun expr _ => Expr.All each expr.parts

def GathersStmt (parser : Parse Stmt) : Prop :=
  ∀ start, Gathers tokens each parser start fun stmt _ => Expr.All each stmt.parts

variable {tokens each}

namespace Gathers

variable {rules : Rules} {start : Reader}

theorem entries {entry : Parse Expr} (good : GathersExpr tokens each entry) (closing : Kind) (count : Nat) :
    Gathers tokens each (Parse.entries entry closing count) start
      fun series _ => Expr.All each (Expr.entryParts series.items) := by
  induction count generalizing start with
  | zero => exact throw
  | succ left ih =>
    unfold Parse.entries
    refine check.bind fun _ _ _ => ite (pure .nil) ?_
    refine (good _).bind fun value _ first => accept.bind fun _ _ _ => slot.bind fun trailing _ _ => ite ?_ ?_
    · exact ih.bind fun others _ further => pure (first.append further)
    · exact pure (first.append .nil)

theorem groupRest {expression : Parse Expr} (good : GathersExpr tokens each expression) (count : Nat) :
    Gathers tokens each (Parse.groupRest expression count) start
      fun others _ => Expr.All each (Expr.listParts others) := by
  induction count generalizing start with
  | zero => exact throw
  | succ left ih =>
    unfold Parse.groupRest
    refine accept.bind fun _ _ _ => ite (pure .nil) ?_
    exact (good _).bind fun expr _ first => ih.bind fun others _ further => pure (first.append further)

theorem indices {expression : Parse Expr} (good : GathersExpr tokens each expression) (count : Nat) :
    Gathers tokens each (Parse.indices expression count) start
      fun indices _ => Expr.All each (Expr.indexParts indices) := by
  induction count generalizing start with
  | zero => exact pure .nil
  | succ left ih =>
    unfold Parse.indices
    refine sees.bind fun _ _ _ => ite ?_ (pure .nil)
    refine slot.bind fun before _ _ => (good _).bind fun index _ first => accept.bind fun _ _ _ => ite ?_ ?_
    · exact ih.bind fun others _ further => pure (first.append further)
    · exact pure (first.append .nil)

theorem series (good : GathersExpr tokens each rules.expression) (closing : Kind) :
    Gathers tokens each (Parse.series rules closing) start
      fun series _ => Expr.All each (Expr.entryParts series.items) :=
  (entries good _ _).bind fun _ _ known => accept.bind fun _ _ _ => pure known

theorem statementsUntil {statement : Parse Stmt} (good : GathersStmt tokens each statement)
    (ends : Kind → Bool) (count : Nat) :
    Gathers tokens each (Parse.statementsUntil statement ends count) start
      fun body _ => Expr.All each (Stmt.listParts body) := by
  induction count generalizing start with
  | zero => exact pure .nil
  | succ left ih =>
    unfold Parse.statementsUntil
    refine sees.bind fun _ _ _ => ite ?_ (pure .nil)
    exact (good _).bind fun stmt _ first => ih.bind fun others _ further => pure (first.append further)

end Gathers

variable (tokens each)

def GathersVariables (parser : Parse (Series Variable)) : Prop :=
  ∀ start, Gathers tokens each parser start
    fun declared _ => Expr.All each (declared.items.flatMap fun item => item.value.target.parts)

/-- The rules that statements refer back to return what is good in all its parts. -/
structure Rules.Gathering (rules : Rules) : Prop where
  statement : GathersStmt tokens each rules.statement
  expression : GathersExpr tokens each rules.expression

variable {tokens each}

namespace Gathers

variable {rules : Rules} {start : Reader}

theorem variableEnd {declared : Variable} (good : Expr.All each declared.target.parts)
    {others : Parse (Series Variable)} (further : GathersVariables tokens each others) :
    GathersVariables tokens each (Parse.variableEnd declared others) := by
  intro start
  refine accept.bind fun _ _ _ => slot.bind fun trailing _ _ => ite ?_ (pure ?_)
  · exact (further _).bind fun others _ behind => pure (Expr.All.append good behind)
  · exact Expr.All.append good .nil

theorem notDeclared {expr : Expr} (good : Expr.All each expr.parts) :
    GathersVariables tokens each (Parse.notDeclared expr) := by
  intro start
  refine accept.bind fun semicolon _ _ => ?_
  have kept : Expr.All each (Stmt.expression expr semicolon).parts := good
  exact (postpone kept).bind fun _ _ _ => pure .nil

section

variable (good : rules.Gathering tokens each)

include good

theorem variableThen (keyword : Option Token) (afterKeyword : Trivia) {others : Parse (Series Variable)}
    (further : GathersVariables tokens each others) :
    GathersVariables tokens each (Parse.variableThen rules keyword afterKeyword others) :=
  fun _ => (good.expression _).bind fun _ _ target =>
    ite (variableEnd target further _) (notDeclared target _)

theorem variableList (count : Nat) : GathersVariables tokens each (Parse.variableList rules count) := by
  induction count with
  | zero => exact fun _ => pure .nil
  | succ left ih =>
    intro start
    unfold Parse.variableList
    refine check.bind fun _ _ _ => ite (pure .nil) (check.bind fun _ _ _ => ite ?_ ?_)
    · refine advance.bind fun keyword _ _ => slot.bind fun afterKeyword _ _ => ?_
      exact variableThen good _ _ ih _
    · refine peek.bind fun kind _ _ => ?_
      split
      · exact pure .nil
      · exact variableThen good _ _ ih _
      · exact pure .nil

theorem declaration : GathersStmt tokens each (Parse.declaration rules) := by
  intro start
  refine advance.bind fun keyword _ _ => slot.bind fun afterKeyword _ _ => ?_
  exact (variableList good _ _).bind fun declared _ targets => accept.bind fun _ _ _ => pure targets

theorem defineRest : GathersStmt tokens each (Parse.defineRest rules) := by
  intro start
  refine slot.bind fun afterKeyword _ _ => (good.expression _).bind fun name _ named => ?_
  exact (statementsUntil good.statement _ _).bind fun body _ inner => pure (named.append inner)

theorem blockRest : GathersStmt tokens each (Parse.blockRest rules) := by
  intro start
  refine slot.bind fun afterOpen _ _ => (statementsUntil good.statement _ _).bind fun body _ inner => ?_
  exact accept.bind fun _ _ _ => accept.bind fun _ _ _ => pure inner

theorem conditionalRest : GathersStmt tokens each (Parse.conditionalRest rules) := by
  intro start
  refine slot.bind fun afterKeyword _ _ => (good.expression _).bind fun condition _ test => ?_
  refine (good.statement _).bind fun whenTrue _ first => slot.bind fun between _ _ => ?_
  have both := test.append first
  refine accept.bind fun _ _ _ => ite ?_ (accept.bind fun _ _ _ => pure both)
  refine slot.bind fun afterElse _ _ => (good.statement _).bind fun whenFalse _ second => ?_
  exact accept.bind fun _ _ _ => pure (both.append second)

theorem returnRest : GathersStmt tokens each (Parse.returnRest rules) := by
  intro start
  refine check.bind fun _ _ _ => ite (accept.bind fun _ _ _ => pure .nil) ?_
  exact (good.expression _).bind fun value _ given => accept.bind fun _ _ _ => pure given

theorem doUntilRest : GathersStmt tokens each (Parse.doUntilRest rules) := by
  intro start
  refine slot.bind fun afterKeyword _ _ => (good.statement _).bind fun body _ inner => ?_
  refine slot.bind fun between _ _ => accept.bind fun _ _ _ => ?_
  refine (good.expression _).bind fun condition _ test => accept.bind fun _ _ _ => ?_
  exact pure (inner.append test)

theorem loopRest (keyword : Token) : GathersStmt tokens each (Parse.loopRest rules keyword) := by
  intro start
  refine slot.bind fun afterKeyword _ _ => (good.expression _).bind fun condition _ test => ?_
  refine (good.statement _).bind fun body _ inner => accept.bind fun _ _ _ => ?_
  exact pure (test.append inner)

theorem branchRest {label : Option Expr} (labelled : Expr.All each (Expr.optionParts label))
    (afterKeyword : Trivia) : Gathers tokens each (Parse.branchRest rules label afterKeyword) start
      fun branch _ => Expr.All each (Expr.optionParts branch.label ++ Stmt.listParts branch.body) := by
  refine accept.bind fun _ _ _ => slot.bind fun afterColon _ _ => ?_
  exact (statementsUntil good.statement _ _).bind fun body _ inner => pure (labelled.append inner)

theorem branch : Gathers tokens each (Parse.branch rules) start
    fun branch _ => Expr.All each (Expr.optionParts branch.label ++ Stmt.listParts branch.body) := by
  refine advance.bind fun token _ _ => ?_
  split
  · refine slot.bind fun afterKeyword _ _ => (good.expression _).bind fun label _ known => ?_
    have labelled : Expr.All each (Expr.optionParts (some label)) := known
    exact branchRest good labelled afterKeyword
  · have unlabelled : Expr.All each (Expr.optionParts none) := .nil
    exact slot.bind fun afterKeyword _ _ => branchRest good unlabelled afterKeyword
  · exact throw

theorem branches (count : Nat) : Gathers tokens each (Parse.branches rules count) start
    fun cases _ => Expr.All each (Stmt.caseParts cases) := by
  induction count generalizing start with
  | zero => exact pure .nil
  | succ left ih =>
    unfold Parse.branches
    refine sees.bind fun _ _ _ => ite ?_ (pure .nil)
    exact (branch good).bind fun first _ known => ih.bind fun others _ further =>
      pure (known.append further)

theorem switchRest : GathersStmt tokens each (Parse.switchRest rules) := by
  intro start
  refine slot.bind fun afterKeyword _ _ => (good.expression _).bind fun subject _ known => ?_
  refine accept.bind fun _ _ _ => slot.bind fun afterOpen _ _ => ?_
  refine (branches good _).bind fun cases _ inner => accept.bind fun _ _ _ => ?_
  exact accept.bind fun _ _ _ => pure (known.append inner)

theorem forStart : Gathers tokens each (Parse.forStart rules) start
    fun start _ => ∀ stmt ∈ start, Expr.All each stmt.parts := by
  refine accept.bind fun _ _ _ => ite (pure (by simp)) (check.bind fun _ _ _ => ite ?_ ?_)
  · exact (declaration good _).bind fun start _ known => pure (by simpa using known)
  · exact (good.expression _).bind fun expr _ known => accept.bind fun _ _ _ =>
      pure (by simpa [Stmt.parts] using known)

theorem forCondition : Gathers tokens each (Parse.forCondition rules) start
    fun condition _ => Expr.All each (Expr.optionParts condition) :=
  accept.bind fun _ _ _ => ite (pure .nil) ((good.expression _).bind fun _ _ known => pure known)

theorem forIncrement : Gathers tokens each (Parse.forIncrement rules) start
    fun increment _ => Expr.All each (Expr.optionParts increment) :=
  check.bind fun _ _ _ => ite (pure .nil) ((good.expression _).bind fun _ _ known => pure known)

theorem forRest : GathersStmt tokens each (Parse.forRest rules) := by
  intro start
  refine slot.bind fun afterKeyword _ _ => accept.bind fun _ _ _ => slot.bind fun afterOpen _ _ => ?_
  refine (forStart good).bind fun start _ first => slot.bind fun afterStart _ _ => ?_
  refine (forCondition good).bind fun condition _ test => accept.bind fun _ _ _ => ?_
  refine slot.bind fun afterCondition _ _ => (forIncrement good).bind fun increment _ step => ?_
  refine accept.bind fun _ _ _ => slot.bind fun afterIncrement _ _ => accept.bind fun _ _ _ => ?_
  refine slot.bind fun afterClose _ _ => (good.statement _).bind fun body _ inner => ?_
  refine accept.bind fun _ _ _ => ?_
  cases start with
  | none => exact pure ((test.append step).append inner)
  | some start => exact pure ((((first start rfl).append test).append step).append inner)

theorem enumerationRest : GathersStmt tokens each (Parse.enumerationRest rules) := by
  intro start
  refine slot.bind fun afterKeyword _ _ => (good.expression _).bind fun name _ named => ?_
  refine accept.bind fun _ _ _ => slot.bind fun afterOpen _ _ => ?_
  refine (series good.expression _).bind fun members _ inner => accept.bind fun _ _ _ => ?_
  exact pure (named.append inner)

theorem opened {token : Token} {rest : Parse Stmt} (opens : Parse.opened rules token = some rest) :
    GathersStmt tokens each rest := by
  unfold Parse.opened at opens
  split at opens
  case h_6 =>
    cases opens
    exact fun _ => accept.bind fun _ _ _ => pure .nil
  case h_7 =>
    cases opens
    exact fun _ => accept.bind fun _ _ _ => pure .nil
  case h_14 =>
    obtain ⟨form, remark, rfl⟩ := Option.map_eq_some_iff.mp opens
    exact fun _ => pure .nil
  all_goals cases opens
  · exact defineRest good
  · exact blockRest good
  · exact enumerationRest good
  · exact conditionalRest good
  · exact returnRest good
  · exact doUntilRest good
  · exact loopRest good token
  · exact loopRest good token
  · exact loopRest good token
  · exact switchRest good
  · exact forRest good

theorem statement (own : GathersExpr tokens each (Parse.expression rules)) :
    GathersStmt tokens each (Parse.statement rules) := by
  have plain : GathersStmt tokens each (Parse.expressionStatement rules) :=
    fun _ => (own _).bind fun _ _ known => accept.bind fun _ _ _ => pure known
  intro start
  refine get.bind fun reader _ _ => ?_
  split
  · exact plain _
  · refine ite (declaration good _) ?_
    split
    · rename_i form opens
      exact advance.bind fun _ _ _ => opened good opens _
    · exact plain _

end

theorem program {statement : Parse Stmt} (good : GathersStmt tokens each statement) (count : Nat) :
    Gathers tokens each (Parse.program statement count) start
      fun program _ => Expr.All each (Stmt.listParts program) := by
  induction count generalizing start with
  | zero => exact pure .nil
  | succ left ih =>
    unfold Parse.program
    refine sees.bind fun _ _ _ => ite ?_ (pure .nil)
    refine setCanPair.bind fun _ _ _ => (good _).bind fun stmt _ first => ?_
    refine takeLeftovers.bind fun leftovers _ kept => ih.bind fun others _ further => pure ?_
    rw [Stmt.listParts, listParts_append]
    exact first.append (kept.append further)

end Gathers

/-- If every statement of the grammar is good in all its expressions, so is every program that is read. -/
theorem all_of_parse {source : String} {program : List Stmt}
    (good : ∀ bound, GathersStmt (scan source) each (Rules.upTo bound).statement)
    (parsed : parse source = .ok program) : Expr.All each (Stmt.listParts program) := by
  have start : Reader.Gathered (scan source) each { rest := scan source } := ⟨List.suffix_rfl, .nil⟩
  unfold parse at parsed
  split at parsed
  · rename_i result stop ran
    cases parsed
    exact (Gathers.program (good _) _ start _ _ ran).2
  · cases parsed

end GmlLayout
