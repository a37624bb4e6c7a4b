import GmlLayout.Proofs.Grammar.Completeness
import GmlLayout.Proofs.Grammar.Gathering
import GmlLayout.Proofs.Tree.Precedence

/-!
Every expression that the grammar builds is graded: at every node the operands bind as tightly as the
node asks. Each level of the grammar adds what it knows of the level of its expression.
-/

namespace GmlLayout

variable (tokens : List Token)

def GradesExpr (least : Nat) (parser : Parse Expr) : Prop :=
  ∀ start, Gathers tokens Expr.Graded parser start
    fun expr _ => Expr.All Expr.Graded expr.parts ∧ least ≤ expr.level

/-- The rules that the grammar refers back to return graded trees, each of its level. -/
structure Rules.Grading (rules : Rules) : Prop where
  statement : GathersStmt tokens Expr.Graded rules.statement
  expression : GradesExpr tokens 0 rules.expression
  assignment : GradesExpr tokens 0 rules.assignment
  ternary : GradesExpr tokens 1 rules.ternary
  binary : ∀ tiers, tiers <:+ Tier.all → GradesExpr tokens (11 - tiers.length) (rules.binary tiers)
  unary : GradesExpr tokens 11 rules.unary
  call : GradesExpr tokens 13 rules.call

variable {tokens}

theorem Rules.grading_empty : Rules.empty.Grading tokens where
  statement _ := Gathers.throw
  expression _ := Gathers.throw
  assignment _ := Gathers.throw
  ternary _ := Gathers.throw
  binary _ _ _ := Gathers.throw
  unary _ := Gathers.throw
  call _ := Gathers.throw

theorem GradesExpr.gathers {least : Nat} {parser : Parse Expr} (grades : GradesExpr tokens least parser) :
    GathersExpr tokens Expr.Graded parser :=
  fun start => (grades start).weaken fun _ _ graded => graded.1

theorem Rules.Grading.gathering {rules : Rules} (grading : rules.Grading tokens) :
    rules.Gathering tokens Expr.Graded :=
  ⟨grading.statement, grading.expression.gathers⟩

namespace Grades

open Gathers

variable {rules : Rules} {start : Reader}

section

variable (grading : rules.Grading tokens)

include grading

theorem grouping : GradesExpr tokens 14 (Parse.grouping rules) := by
  intro start
  refine slot.bind fun afterOpen _ _ => (grading.expression _).bind fun first _ firstGraded => ?_
  refine (groupRest grading.expression.gathers _).bind fun others _ othersGraded => ?_
  refine slot.bind fun afterClose _ _ => ?_
  exact pure ⟨.cons trivial (firstGraded.1.append othersGraded), Nat.le_refl _⟩

theorem array : GradesExpr tokens 14 (Parse.array rules) := by
  intro start
  refine slot.bind fun afterOpen _ _ => (series grading.expression.gathers _).bind fun elements _ graded => ?_
  exact pure ⟨.cons trivial graded, Nat.le_refl _⟩

theorem primary : GradesExpr tokens 14 (Parse.primary rules) := by
  have leaf : ∀ {expr : Expr}, expr.parts = [expr] → expr.Graded → 14 ≤ expr.level →
      Expr.All Expr.Graded expr.parts ∧ 14 ≤ expr.level := by
    intro expr alone own tight
    rw [alone]
    exact ⟨.cons own .nil, tight⟩
  intro start
  refine advance.bind fun token _ _ => ?_
  split
  case h_6 => exact grouping grading _
  case h_7 => exact array grading _
  case h_11 =>
    refine get.bind fun _ _ _ => ite (slot.bind fun trailing _ _ => pure ?_) throw
    exact leaf rfl trivial (Nat.le_refl _)
  case h_8 => exact setCanPair.bind fun _ _ _ => pure (leaf rfl trivial (Nat.le_refl _))
  case h_9 => exact setCanPair.bind fun _ _ _ => pure (leaf rfl trivial (Nat.le_refl _))
  case h_10 => exact setCanPair.bind fun _ _ _ => pure (leaf rfl trivial (Nat.le_refl _))
  all_goals exact slot.bind fun after _ _ => pure (leaf rfl trivial (Nat.le_refl _))

theorem accesses (count : Nat) {owner : Expr} (ownerGraded : Expr.All Expr.Graded owner.parts)
    (tight : 13 ≤ owner.level) : GradesExpr tokens 13 (Parse.accesses rules count owner) := by
  induction count generalizing owner with
  | zero => exact fun _ => pure ⟨ownerGraded, tight⟩
  | succ left ih =>
    intro start
    unfold Parse.accesses
    refine sees.bind fun _ _ _ => ite ?_ (sees.bind fun _ _ _ => ite ?_ (pure ⟨ownerGraded, tight⟩))
    · refine advance.bind fun _ _ _ => slot.bind fun afterDot _ _ => ?_
      refine (grading.call _).bind fun member _ graded => slot.bind fun trailing _ _ => ?_
      refine ih ?_ (Nat.le_refl _) _
      exact .cons ⟨tight, graded.2⟩ (ownerGraded.append graded.1)
    · refine advance.bind fun accessor _ _ => ?_
      refine (indices grading.expression.gathers _).bind fun indices _ graded => ?_
      refine accept.bind fun _ _ _ => slot.bind fun trailing _ _ => ih ?_ (Nat.le_refl _) _
      exact .cons tight (ownerGraded.append graded)

theorem arguments {callee : Expr} (calleeGraded : Expr.All Expr.Graded callee.parts)
    (tight : 14 ≤ callee.level) : GradesExpr tokens 13 (Parse.arguments rules callee) := by
  have most : callee.level = 14 := Nat.le_antisymm callee.level_le tight
  intro start
  refine accept.bind fun _ _ _ => ite ?_ (pure ⟨calleeGraded, by omega⟩)
  refine slot.bind fun afterOpen _ _ => (series grading.expression.gathers _).bind fun arguments _ graded => ?_
  exact slot.bind fun trailing _ _ =>
    pure ⟨.cons most (calleeGraded.append graded), Nat.le_refl _⟩

theorem call : GradesExpr tokens 13 (Parse.call rules) := by
  intro start
  refine (primary grading _).bind fun callee _ graded => ?_
  exact (arguments grading graded.1 graded.2 _).bind fun called _ calledGraded =>
    accesses grading _ calledGraded.1 calledGraded.2 _

theorem stepped : GradesExpr tokens 12 (Parse.stepped rules) := by
  intro start
  refine (call grading _).bind fun operand _ graded => check.bind fun _ _ _ => ite ?_ ?_
  · refine advance.bind fun operator _ _ => slot.bind fun afterOperator _ _ => ?_
    exact pure ⟨.cons graded.2 graded.1, Nat.le_refl _⟩
  · exact pure ⟨graded.1, Nat.le_of_succ_le graded.2⟩

theorem unary : GradesExpr tokens 11 (Parse.unary rules) := by
  intro start
  refine check.bind fun _ _ _ => ite ?_ ((stepped grading _).weaken fun _ _ graded => ?_)
  · refine advance.bind fun operator _ _ => slot.bind fun afterOperator _ _ => ?_
    exact (grading.unary _).bind fun operand _ graded => pure ⟨.cons graded.2 graded.1, Nat.le_refl _⟩
  · exact ⟨graded.1, Nat.le_of_succ_le graded.2⟩

end

/-- What is chained is of the level of the chain, and its right operands are of the next one. -/
theorem chain {operand : Parse Expr} {tier : Tier} {tighter : List Tier}
    (known : tier :: tighter <:+ Tier.all) (side : tier.side = .left)
    (each : GradesExpr tokens (11 - tighter.length) operand) (count : Nat) {left : Expr}
    (leftGraded : Expr.All Expr.Graded left.parts) (tight : 10 - tighter.length ≤ left.level) :
    GradesExpr tokens (10 - tighter.length) (Parse.chain operand tier.joins count left) := by
  induction count generalizing left with
  | zero => exact fun _ => pure ⟨leftGraded, tight⟩
  | succ count ih =>
    intro start
    unfold Parse.chain
    refine ifSees (fun operator _ joins _ _ => ?_) (pure ⟨leftGraded, tight⟩)
    obtain ⟨level, loose⟩ := level?_of_joins known joins
    have tightly : ¬10 - tighter.length ≤ 4 := by
      rw [← loose, side]
      decide
    refine slot.bind fun afterOperator _ _ => (each _).bind fun right _ graded => ih ?_ ?_ _
    · refine .cons ?_ (leftGraded.append graded.1)
      simp only [Expr.Graded, level, if_neg tightly]
      exact ⟨tight, by omega⟩
    · simp [Expr.level, level]

section

variable (grading : rules.Grading tokens)

include grading

theorem binary (tiers : List Tier) (known : tiers <:+ Tier.all) :
    GradesExpr tokens (11 - tiers.length) (Parse.binary rules tiers) := by
  induction tiers with
  | nil => exact unary grading
  | cons tier tighter ih =>
    have tighterKnown : tighter <:+ Tier.all := (List.suffix_cons tier tighter).trans known
    have few : tighter.length + 1 ≤ 9 := known.length_le
    have level : 11 - (tier :: tighter).length = 10 - tighter.length := by
      rw [List.length_cons]
      omega
    rw [level]
    intro start
    unfold Parse.binary
    refine (ih tighterKnown _).bind fun left _ graded => ?_
    have tight : 10 - tighter.length ≤ left.level := by
      have := graded.2
      omega
    split
    · rename_i side
      refine get.bind fun _ _ _ => ite ?_ (pure ⟨graded.1, tight⟩)
      exact chain known side (grading.binary tighter tighterKnown) _ graded.1 tight _
    · rename_i side
      refine ifCheck (fun operator _ joins _ => ?_) (pure ⟨graded.1, tight⟩)
      obtain ⟨own, loose⟩ := level?_of_joins known joins
      refine slot.bind fun afterOperator _ _ => (grading.binary _ known _).bind fun right _ rightGraded => ?_
      refine pure ⟨.cons ?_ (graded.1.append rightGraded.1), by simp [Expr.level, own]⟩
      have rightTight := rightGraded.2
      rw [level] at rightTight
      simp only [Expr.Graded, own, if_pos (loose.mp side)]
      exact ⟨by omega, rightTight⟩

theorem ternary : GradesExpr tokens 1 (Parse.ternary rules) := by
  intro start
  refine (binary grading Tier.all List.suffix_rfl _).bind fun condition _ graded => ?_
  refine accept.bind fun _ _ _ => ite ?_ (pure ⟨graded.1, Nat.le_of_succ_le graded.2⟩)
  refine slot.bind fun afterHook _ _ => (grading.ternary _).bind fun whenTrue _ trueGraded => ?_
  refine accept.bind fun _ _ _ => slot.bind fun afterColon _ _ => ?_
  refine (grading.ternary _).bind fun whenFalse _ falseGraded => pure ⟨?_, Nat.le_refl _⟩
  exact .cons ⟨graded.2, trueGraded.2, falseGraded.2⟩
    ((graded.1.append trueGraded.1).append falseGraded.1)

theorem completed {opening : Expr} (openingGraded : Expr.All Expr.Graded opening.parts)
    (binds : 1 ≤ opening.level) : Gathers tokens Expr.Graded (Parse.completed rules opening) start
      fun expr _ => Expr.All Expr.Graded expr.parts ∧ expr.isAssignment = false := by
  have lifetimeRest : ∀ operator start, Gathers tokens Expr.Graded (Parse.lifetimeRest rules operator) start
      fun expr _ => Expr.All Expr.Graded expr.parts ∧ expr.isAssignment = false := by
    intro operator start
    refine slot.bind fun afterOperator _ _ => (grading.expression _).bind fun operand _ graded => ?_
    exact slot.bind fun trailing _ _ => pure ⟨.cons trivial graded.1, rfl⟩
  have same := (⟨openingGraded, Expr.isAssignment_of_level binds⟩ :
    Expr.All Expr.Graded opening.parts ∧ opening.isAssignment = false)
  unfold Parse.completed
  split
  · split
    · refine slot.bind fun afterKeyword _ _ => (grading.expression _).bind fun signature _ graded => ?_
      refine slot.bind fun afterSignature _ _ => accept.bind fun isConstructor _ _ => ?_
      exact slot.bind fun trailing _ _ => pure ⟨.cons trivial graded.1, rfl⟩
    · exact lifetimeRest _ _
    · exact lifetimeRest _ _
    · exact pure same
  · exact pure same

theorem assignment : GradesExpr tokens 0 (Parse.assignment rules) := by
  intro start
  refine (ternary grading _).bind fun opening _ graded => ?_
  refine (completed grading graded.1 graded.2).bind fun target _ targetGraded => ?_
  refine check.bind fun _ _ _ => ite ?_ (pure ⟨targetGraded.1, Nat.zero_le _⟩)
  refine advance.bind fun operator _ _ => slot.bind fun afterOperator _ _ => ?_
  exact (grading.assignment _).bind fun value _ valueGraded =>
    pure ⟨.cons targetGraded.2 (targetGraded.1.append valueGraded.1), Nat.zero_le _⟩

theorem expression : GradesExpr tokens 0 (Parse.expression rules) := by
  intro start
  refine setAllowUnidentified.bind fun _ _ _ => (assignment grading _).bind fun expr _ graded => ?_
  exact setCanPair.bind fun _ _ _ => setAllowUnidentified.bind fun _ _ _ => pure graded

end

end Grades

namespace Rules

theorem Grading.next {rules : Rules} (grading : rules.Grading tokens) : rules.next.Grading tokens where
  statement := Gathers.statement grading.gathering (Grades.expression grading).gathers
  expression := Grades.expression grading
  assignment := Grades.assignment grading
  ternary := Grades.ternary grading
  binary := Grades.binary grading
  unary := Grades.unary grading
  call := Grades.call grading

theorem grading_upTo (bound : Nat) : (upTo bound).Grading tokens := by
  induction bound with
  | zero => exact grading_empty
  | succ bound ih => exact ih.next

end Rules

/-- Every expression in a program that was read has the operands that its level asks for. -/
theorem parse_graded {source : String} {program : List Stmt} (parsed : parse source = .ok program) :
    ∀ expr ∈ Stmt.listParts program, expr.Graded :=
  all_of_parse (fun bound => (Rules.grading_upTo bound).statement) parsed

/-- Nine kinds of nodes inside each other: an assignment, a choice, operators of both groupings, a sign, a
step and a member. -/
theorem parse_graded_assignment : ∃ program,
    parse "x = a or b and c - d - e * -f.g++ ? h : i" = .ok program ∧
      (Stmt.listParts program).map Expr.level =
        [0, 14, 1, 2, 14, 3, 14, 9, 9, 14, 14, 10, 14, 11, 12, 13, 14, 14, 14, 14] ∧
      ∀ expr ∈ Stmt.listParts program, expr.Graded := by
  have read : ∃ program, parse "x = a or b and c - d - e * -f.g++ ? h : i" = .ok program ∧
      (Stmt.listParts program).map Expr.level =
        [0, 14, 1, 2, 14, 3, 14, 9, 9, 14, 14, 10, 14, 11, 12, 13, 14, 14, 14, 14] :=
    exists_ok (by decide +kernel)
  obtain ⟨program, parsed, levels⟩ := read
  exact ⟨program, parsed, levels, parse_graded parsed⟩

end GmlLayout
