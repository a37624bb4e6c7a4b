import GmlLayout.Proofs.Grammar.StatementYield

/-!
Parsers go forward: none gives a token back, and every expression and every statement takes at least one
token, its first.
-/

namespace GmlLayout

def Forward {α : Type} (parser : Parse α) : Prop :=
  ∀ start value stop, parser start = .ok value stop → stop.rest.length ≤ start.rest.length

def Takes {α : Type} (parser : Parse α) : Prop :=
  ∀ start value stop, parser start = .ok value stop → stop.rest.length < start.rest.length

namespace Forward

variable {α β : Type}

theorem of_yields {parser : Parse α} {sofar : List Leaf} {leaves : α → List Leaf}
    (yields : ∀ start, Yields parser start sofar leaves) : Forward parser := by
  intro start value stop done
  obtain ⟨_, _, took⟩ := yields start value stop done
  exact took.length_le

theorem bind {parser : Parse α} {next : α → Parse β} (front : Forward parser)
    (back : ∀ value, Forward (next value)) : Forward (parser >>= next) := by
  intro start value stop done
  obtain ⟨first, middle, ran, rest⟩ := bind_eq_ok done
  exact Nat.le_trans (back first middle value stop rest) (front start first middle ran)

theorem pure {value : α} : Forward (Pure.pure value) := by
  intro start result stop done
  cases done
  exact Nat.le_refl _

theorem ite {test : Prop} [Decidable test] {first second : Parse α} (yes : Forward first)
    (no : Forward second) : Forward (if test then first else second) := by
  split
  · exact yes
  · exact no

theorem get : Forward (MonadState.get : Parse Reader) := by
  intro start result stop done
  cases done
  exact Nat.le_refl _

theorem check {accepted : Kind → Bool} : Forward (Parse.check accepted) := by
  intro start result stop done
  rw [Parse.check_run] at done
  cases done
  exact Nat.le_refl _

theorem advance : Forward Parse.advance := by
  intro start token stop done
  obtain ⟨rest, shape, rfl⟩ := Parse.advance_run done
  simp [shape]

theorem accept {kind : Kind} : Forward (Parse.accept kind) :=
  check.bind fun _ => ite (advance.bind fun _ => pure) pure

theorem slot : Forward Parse.slot := by
  intro start trivia stop done
  cases done
  exact (List.dropWhile_suffix _).length_le

theorem setCanPair {canPair : Bool} : Forward (Parse.setCanPair canPair) := by
  intro start result stop done
  cases done
  exact Nat.le_refl _

end Forward

namespace Takes

variable {α β : Type}

theorem bind {parser : Parse α} {next : α → Parse β} (front : Takes parser)
    (back : ∀ value, Forward (next value)) : Takes (parser >>= next) := by
  intro start value stop done
  obtain ⟨first, middle, ran, rest⟩ := bind_eq_ok done
  exact Nat.lt_of_le_of_lt (back first middle value stop rest) (front start first middle ran)

theorem after {parser : Parse α} {next : α → Parse β} (front : Forward parser)
    (back : ∀ value, Takes (next value)) : Takes (parser >>= next) := by
  intro start value stop done
  obtain ⟨first, middle, ran, rest⟩ := bind_eq_ok done
  exact Nat.lt_of_lt_of_le (back first middle value stop rest) (front start first middle ran)

theorem ite {test : Prop} [Decidable test] {first second : Parse α} (yes : Takes first)
    (no : Takes second) : Takes (if test then first else second) := by
  split
  · exact yes
  · exact no

theorem advance : Takes Parse.advance := by
  intro start token stop done
  obtain ⟨rest, shape, rfl⟩ := Parse.advance_run done
  simp [shape]

end Takes

namespace Parse

variable {rules : Rules}

theorem forward_of_yieldsExpr {parser : Parse Expr} (yields : YieldsExpr parser) : Forward parser :=
  .of_yields fun start => yields start []

theorem primary_takes (faithful : rules.Faithful) : Takes (primary rules) := by
  apply Takes.advance.bind
  intro token
  have kept : ∀ make : Trivia → Expr, Forward (do return make (← slot)) :=
    fun _ => Forward.slot.bind fun _ => .pure
  have unpaired : ∀ expr : Expr, Forward (do setCanPair false; return expr) :=
    fun _ => Forward.setCanPair.bind fun _ => .pure
  split
  case h_6 => exact forward_of_yieldsExpr (grouping_yields faithful)
  case h_7 => exact forward_of_yieldsExpr (array_yields faithful)
  case h_11 => exact .of_yields fun start => unidentified_yields token start []
  case h_8 => exact unpaired _
  case h_9 => exact unpaired _
  case h_10 => exact unpaired _
  all_goals exact kept _

theorem call_takes (faithful : rules.Faithful) : Takes (call rules) := by
  apply (primary_takes faithful).bind
  intro callee
  apply Forward.bind
  · exact .of_yields fun start => arguments_yields faithful callee start []
  · intro called
    exact .of_yields fun start => accesses_yields faithful _ called start []

theorem stepped_takes (faithful : rules.Faithful) : Takes (stepped rules) := by
  apply (call_takes faithful).bind
  intro operand
  exact Forward.check.bind fun _ =>
    .ite (Forward.advance.bind fun _ => Forward.slot.bind fun _ => .pure) .pure

theorem unary_takes (faithful : rules.Faithful) : Takes (unary rules) := by
  apply Takes.after Forward.check
  intro prefixed
  apply Takes.ite
  · apply Takes.advance.bind
    intro operator
    have operand := forward_of_yieldsExpr faithful.unary
    exact Forward.slot.bind fun _ => operand.bind fun _ => .pure
  · exact stepped_takes faithful

theorem binary_takes (faithful : rules.Faithful) (tiers : List Tier)
    (known : ∀ tier ∈ tiers, tier ∈ Tier.all) : Takes (binary rules tiers) := by
  induction tiers with
  | nil => exact unary_takes faithful
  | cons tier tighter ih =>
    have tighterKnown : ∀ tier ∈ tighter, tier ∈ Tier.all :=
      fun tier member => known tier (List.mem_cons_of_mem _ member)
    have undotted : ∀ kind, tier.joins kind = true → kind.isDotted = false :=
      fun kind => isDotted_of_joins (known tier List.mem_cons_self)
    unfold binary
    apply (ih tighterKnown).bind
    intro left
    split
    · have chained : Forward (chain (rules.binary tighter) tier.joins rules.bound left) :=
        .of_yields fun start =>
          chain_yields (faithful.binary tighter tighterKnown) undotted _ left start []
      exact Forward.get.bind fun _ => .ite chained .pure
    · have right := forward_of_yieldsExpr (faithful.binary (tier :: tighter) known)
      exact Forward.check.bind fun _ =>
        .ite (Forward.advance.bind fun _ => Forward.slot.bind fun _ => right.bind fun _ => .pure) .pure

theorem ternary_takes (faithful : rules.Faithful) : Takes (ternary rules) := by
  apply (binary_takes faithful Tier.all fun _ member => member).bind
  intro condition
  have branch := forward_of_yieldsExpr faithful.ternary
  refine Forward.accept.bind fun _ => .ite ?_ .pure
  exact Forward.slot.bind fun _ => branch.bind fun _ => Forward.accept.bind fun _ =>
    Forward.slot.bind fun _ => branch.bind fun _ => .pure

theorem completed_forward (faithful : rules.Faithful) (opening : Expr) :
    Forward (completed rules opening) := by
  unfold completed
  split
  · split
    · exact .of_yields fun start => functionRest_yields faithful start []
    · exact .of_yields fun start => lifetimeRest_yields faithful _ start []
    · exact .of_yields fun start => lifetimeRest_yields faithful _ start []
    · exact .pure
  · exact .pure

theorem assignment_takes (faithful : rules.Faithful) : Takes (assignment rules) := by
  apply (ternary_takes faithful).bind
  intro opening
  have value := forward_of_yieldsExpr faithful.assignment
  refine (completed_forward faithful opening).bind fun target => Forward.check.bind fun _ => ?_
  exact .ite (Forward.advance.bind fun _ => Forward.slot.bind fun _ => value.bind fun _ => .pure) .pure

theorem expression_takes (faithful : rules.Faithful) : Takes (expression rules) := by
  intro start value stop done
  obtain ⟨_, allowed, ran, rest⟩ := bind_eq_ok done
  cases ran
  obtain ⟨expr, middle, ran, rest⟩ := bind_eq_ok rest
  have taken := assignment_takes faithful _ expr middle ran
  cases rest
  exact taken

theorem expressionStatement_takes (faithful : rules.Faithful) : Takes (expressionStatement rules) :=
  (expression_takes faithful).bind fun _ => Forward.accept.bind fun _ => .pure

theorem declaration_takes (faithful : rules.Faithful) : Takes (declaration rules) := by
  apply Takes.advance.bind
  intro keyword
  have list : Forward (variableList rules rules.bound) :=
    .of_yields fun start => variableList_yields faithful _ start []
  exact Forward.slot.bind fun _ => list.bind fun _ => Forward.accept.bind fun _ => .pure

theorem statement_takes (faithful : rules.Faithful) : Takes (statement rules) := by
  apply Takes.after Forward.get
  intro reader
  split
  · exact expressionStatement_takes faithful
  · apply Takes.ite
    · exact declaration_takes faithful
    · split
      · rename_i form found
        obtain ⟨leaf, _, yields⟩ := opened_yields_rest faithful found
        exact Takes.advance.bind fun _ => .of_yields fun start => yields start []
      · exact expressionStatement_takes faithful

end Parse

theorem Rules.takes_upTo (bound : Nat) : Takes (upTo bound).statement := by
  cases bound with
  | zero =>
    intro start value stop done
    cases done
  | succ bound => exact Parse.statement_takes (faithful_upTo bound)

end GmlLayout
