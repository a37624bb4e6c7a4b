import GmlLayout.Grammar.Tier
import GmlLayout.Proofs.Tree.Parts

/-!
How tightly an expression binds, and which operands a node may have. A level is a number, and a larger
one binds tighter. The loosest three kinds of operators group to the right, the others to the left.
-/

namespace GmlLayout

def Kind.level? : Kind → Option Nat
  | .symbol .doubleBar | .keyword .orWord => some 2
  | .symbol .doubleAmpersand | .keyword .andWord => some 3
  | .symbol .doubleCaret | .keyword .xorWord => some 4
  | .symbol .equalEqual | .symbol .bangEqual | .symbol .lessGreater => some 5
  | .symbol .greater | .symbol .greaterEqual | .symbol .less | .symbol .lessEqual => some 6
  | .symbol .ampersand | .symbol .bar | .symbol .caret => some 7
  | .symbol .shiftLeft | .symbol .shiftRight => some 8
  | .symbol .minus | .symbol .plus => some 9
  | .symbol .slash | .symbol .star | .symbol .percent | .keyword .modWord | .keyword .divWord => some 10
  | _ => none

namespace Expr

def level : Expr → Nat
  | .assign .. | .function .. | .lifetime .. => 0
  | .ternary .. => 1
  | .binary _ operator _ _ => operator.kind.level?.getD 0
  | .unary .. => 11
  | .step .. => 12
  | .call .. | .dotted .. | .access .. => 13
  | _ => 14

def isAssignment : Expr → Bool
  | .assign .. => true
  | _ => false

/-- The operands of the node bind as tightly as it asks. Operators of the levels 2 to 4 take their own
level on the right, those of the levels 5 to 10 on the left, and there are no others. -/
def Graded : Expr → Prop
  | .binary left operator _ right =>
    match operator.kind.level? with
    | some level =>
      if level ≤ 4 then level + 1 ≤ left.level ∧ level ≤ right.level
      else level ≤ left.level ∧ level + 1 ≤ right.level
    | none => False
  | .ternary condition _ whenTrue _ whenFalse =>
    2 ≤ condition.level ∧ 1 ≤ whenTrue.level ∧ 1 ≤ whenFalse.level
  | .unary _ _ operand => 11 ≤ operand.level
  | .step operand _ _ => 13 ≤ operand.level
  | .dotted owner _ member _ => 13 ≤ owner.level ∧ 13 ≤ member.level
  | .access collection _ _ _ => 13 ≤ collection.level
  | .call callee _ _ _ => callee.level = 14
  | .assign target _ _ _ => target.isAssignment = false
  | _ => True

theorem level_le (expr : Expr) : expr.level ≤ 14 := by
  cases expr with
  | binary left operator afterOperator right =>
    simp only [level, Kind.level?]
    split <;> decide
  | _ => simp [level]

theorem isAssignment_of_level {expr : Expr} (binds : 1 ≤ expr.level) : expr.isAssignment = false := by
  cases expr with
  | assign => cases binds
  | _ => rfl

end Expr

/-- The level of an operator is given by the tiers that bind tighter than its own. Right of it, operators
of its own tier may stand exactly if the tier is one of the loosest three. -/
theorem level?_of_joins {tier : Tier} {tighter : List Tier} (known : tier :: tighter <:+ Tier.all)
    {kind : Kind} (joins : tier.joins kind = true) :
    kind.level? = some (10 - tighter.length) ∧ (tier.side = .right ↔ 10 - tighter.length ≤ 4) := by
  simp only [Tier.all, List.suffix_cons_iff, List.suffix_nil, List.cons.injEq, reduceCtorEq,
    or_false] at known
  rcases known with ⟨rfl, rfl⟩ | ⟨rfl, rfl⟩ | ⟨rfl, rfl⟩ | ⟨rfl, rfl⟩ | ⟨rfl, rfl⟩ | ⟨rfl, rfl⟩ |
    ⟨rfl, rfl⟩ | ⟨rfl, rfl⟩ | ⟨rfl, rfl⟩
  all_goals
    refine ⟨?_, by decide⟩
    dsimp only [Tier.disjunction, Tier.conjunction, Tier.exclusion, Tier.equality, Tier.comparison,
      Tier.bitwise, Tier.shift, Tier.additive, Tier.multiplicative] at joins
    split at joins
    all_goals first | rfl | cases joins

end GmlLayout
