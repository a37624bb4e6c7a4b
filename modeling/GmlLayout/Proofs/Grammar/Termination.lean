import GmlLayout.Proofs.Grammar.LookaheadRules
import GmlLayout.Proofs.Grammar.Program

/-!
The grammar comes to an end by itself. Unrolled to more steps than there are tokens, it does the same
whatever its deepest references do and however often its repetitions may turn: no parse gets there. A
program that is read has used up its tokens.
-/

namespace GmlLayout

namespace Rules

/-- The grammar unrolled: `depth` steps above rules that may do anything. -/
def unroll (base : Rules) : Nat → Rules
  | 0 => base
  | depth + 1 => (base.unroll depth).next

theorem unroll_add (base : Rules) (first second : Nat) :
    base.unroll (first + second) = (base.unroll first).unroll second := by
  induction second with
  | zero => rfl
  | succ second ih => rw [← Nat.add_assoc, unroll, unroll, ih]

theorem upTo_eq_unroll (bound : Nat) : upTo bound = empty.unroll bound := by
  induction bound with
  | zero => rfl
  | succ bound ih => rw [upTo, unroll, ih]

theorem failAtEnd_upTo (bound : Nat) : (upTo bound).FailAtEnd := by
  cases bound with
  | zero => exact failAtEnd_empty
  | succ bound => exact failAtEnd_next _

/-- The rules are at least `most` steps above rules that fail at the end of the tokens. -/
def Reaches (most : Nat) (rules : Rules) : Prop :=
  ∃ base : Rules, base.FailAtEnd ∧ rules = base.unroll most

theorem reaches_upTo {most bound : Nat} (enough : most ≤ bound) : Reaches most (upTo bound) := by
  refine ⟨upTo (bound - most), failAtEnd_upTo _, ?_⟩
  rw [upTo_eq_unroll, upTo_eq_unroll, ← unroll_add, Nat.sub_add_cancel enough]

theorem reaches_unroll (base : Rules) {most depth : Nat} (deep : most < depth) :
    Reaches most (base.unroll depth) := by
  obtain ⟨above, rfl⟩ := Nat.exists_eq_add_of_lt deep
  refine ⟨base.unroll (above + 1), failAtEnd_next _, ?_⟩
  rw [← unroll_add]
  congr 1
  omega

theorem Reaches.alike {most : Nat} {rules others : Rules} (own : Reaches most rules)
    (other : Reaches most others) : Alike most rules others := by
  obtain ⟨base, ends, rfl⟩ := own
  obtain ⟨otherBase, otherEnds, rfl⟩ := other
  induction most with
  | zero => exact .of_failAtEnd ends otherEnds
  | succ most ih => exact ih.next

end Rules

namespace Alike

variable {α : Type} {most : Nat} {takes : Bool} {parser other : Parse α} {start stop : Reader}

theorem returns_same (alike : Alike most takes [] parser other) {value : α}
    (short : start.rest.length ≤ most) (done : parser start = .ok value stop) :
    other start = .ok value stop := by
  obtain ⟨taken, split, _, same⟩ := alike.returns short done
  have within : taken.length < start.rest.length + 1 := by
    rw [split, List.length_append]
    omega
  have behind : start.rest.drop taken.length = stop.rest := by rw [split, List.drop_left]
  have again := same short rfl within
  rwa [behind] at again

theorem refuses_same (alike : Alike most takes [] parser other) {cause : ParseError}
    (short : start.rest.length ≤ most) (failed : parser start = .error cause stop) :
    ∃ finish, other start = .error cause finish ∧
      finish.rest = start.rest.drop (start.rest.length - stop.rest.length) := by
  obtain ⟨_, same⟩ := alike.refuses short failed
  exact @same (start.rest.length + 1) start.rest short rfl ⟨by omega, fun _ => by omega⟩

end Alike

def Parse.outcome {α : Type} : EStateM.Result ParseError Reader α → Except ParseError α
  | .ok value _ => .ok value
  | .error cause _ => .error cause

theorem parse_eq_outcome (source : String) : parse source = Parse.outcome (parseTokens (scan source)) := by
  unfold parse Parse.outcome
  split <;> simp_all

theorem Alike.outcome_eq {α : Type} {most : Nat} {takes : Bool} {parser other : Parse α}
    (alike : Alike most takes [] parser other) {start : Reader} (short : start.rest.length ≤ most) :
    Parse.outcome (other start) = Parse.outcome (parser start) := by
  cases ran : parser start with
  | ok value stop => rw [alike.returns_same short ran]
  | error cause stop =>
    obtain ⟨finish, failed, _⟩ := alike.refuses_same short ran
    rw [failed]
    rfl

/-- Rules that reach the end of the tokens, with turns enough for all of them, read the same program. -/
theorem outcome_program {tokens : List Token} {rules : Rules} (reaches : rules.Reaches tokens.length)
    {count : Nat} (enough : tokens.length ≤ count) :
    Parse.outcome (Parse.program rules.statement count { rest := tokens }) =
      Parse.outcome (parseTokens tokens) := by
  have alike := (Rules.reaches_upTo (Nat.le_refl tokens.length)).alike reaches
  have programs := Alike.program alike.statement (.of_le (Nat.le_refl _) enough)
  exact programs.outcome_eq (Nat.le_refl _)

namespace Parse

theorem units_rest {statement : Parse Stmt} (takes : Takes statement) {count : Nat}
    {start stop : Reader} {units : List (Stmt × List Stmt)} (enough : start.rest.length ≤ count)
    (done : Parse.units statement count start = .ok units stop) : stop.rest = [] := by
  induction count generalizing start units with
  | zero =>
    have none : start.rest = [] := List.length_eq_zero_iff.mp (Nat.le_zero.mp enough)
    obtain ⟨_, rfl⟩ := units_none none done
    exact none
  | succ left ih =>
    by_cases none : start.rest = []
    · obtain ⟨_, rfl⟩ := units_none none done
      exact none
    · obtain ⟨stmt, middle, others, ran, rest, _⟩ := units_step none done
      have shorter := takes _ stmt middle ran
      have enoughRest : ({ middle with leftovers := [] } : Reader).rest.length ≤ left :=
        Nat.le_of_lt_succ (Nat.lt_of_lt_of_le shorter enough)
      exact ih enoughRest rest

end Parse

theorem parseTokens_rest {tokens : List Token} {program : List Stmt} {stop : Reader}
    (done : parseTokens tokens = .ok program stop) : stop.rest = [] := by
  unfold parseTokens at done
  rw [Parse.program_eq_units] at done
  obtain ⟨units, stop', ran, rest⟩ := bind_eq_ok done
  cases rest
  have enough : ({ rest := tokens } : Reader).rest.length ≤ tokens.length := Nat.le_refl _
  exact Parse.units_rest (Rules.takes_upTo _) enough ran

/-- Every source is read to its last token or refused, by any unrolling of the grammar that is deeper than
its tokens are many, with any rules below it and any number of turns that is not too small; and in such an
unrolling a statement or an expression that is read has taken a token. -/
theorem parse_terminates (source : String) :
    (∀ (base : Rules) (depth count : Nat),
      (scan source).length < depth → (scan source).length ≤ count →
        Parse.outcome (Parse.program (base.unroll depth).statement count { rest := scan source }) =
          parse source) ∧
    ((∃ program stop, parseTokens (scan source) = .ok program stop ∧ stop.rest = [] ∧
        parse source = .ok program) ∨
      ∃ cause, parse source = .error cause) ∧
    ∀ (base : Rules) (depth : Nat) (start : Reader), start.rest.length < depth →
      (∀ stmt stop, (base.unroll depth).statement start = .ok stmt stop →
        ∃ taken, taken ≠ [] ∧ start.rest = taken ++ stop.rest) ∧
      ∀ expr stop, (base.unroll depth).expression start = .ok expr stop →
        ∃ taken, taken ≠ [] ∧ start.rest = taken ++ stop.rest := by
  refine ⟨fun base depth count deep enough => ?_, ?_, fun base depth start deep => ?_⟩
  · rw [parse_eq_outcome]
    exact outcome_program (Rules.reaches_unroll base deep) enough
  · rw [parse_eq_outcome]
    cases ran : parseTokens (scan source) with
    | ok program stop => exact .inl ⟨program, stop, rfl, parseTokens_rest ran, rfl⟩
    | error cause stop => exact .inr ⟨cause, rfl⟩
  · have reaches := Rules.reaches_unroll base deep
    have alike := reaches.alike reaches
    constructor
    · intro stmt stop done
      obtain ⟨taken, split, some, _⟩ := alike.statement.returns (Nat.le_refl _) done
      exact ⟨taken, some rfl, split⟩
    · intro expr stop done
      obtain ⟨taken, split, some, _⟩ := alike.expression.returns (Nat.le_refl _) done
      exact ⟨taken, some rfl, split⟩

end GmlLayout
