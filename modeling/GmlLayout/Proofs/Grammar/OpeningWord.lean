import GmlLayout.Proofs.Grammar.Yield

/-!
An expression below the level of assignments that turns out to be a bare word is that word alone: the
parser has taken the word and the trivia behind it, and nothing else. This is what the rules for
`function`, `new` and `delete` start from. A bare line break is likewise that line break alone.
-/

namespace GmlLayout

def Expr.isBare : Expr → Bool
  | .unidentified .. => true
  | .newline => true
  | _ => false

/-- Between the two states the word was taken, with the trivia behind it. -/
def TookWord (start stop : Reader) (word : Token) : Prop :=
  ∃ rest, start.rest = word :: rest ∧ stop.rest = rest.dropWhile (·.kind.isTrivia) ∧
    stop.leftovers = start.leftovers

def TookBreak (start stop : Reader) : Prop :=
  ∃ token, token.kind = .newline ∧ start.rest = token :: stop.rest ∧ stop.leftovers = start.leftovers

/-- Between the two states a bare expression was taken, and nothing else; of other expressions nothing is
said. -/
def TookBare (start stop : Reader) : Expr → Prop
  | .unidentified word _ => TookWord start stop word
  | .newline => TookBreak start stop
  | _ => True

def Bare (parser : Parse Expr) : Prop :=
  ∀ start result stop, parser start = .ok result stop → TookBare start stop result

theorem TookBare.of_built {start stop : Reader} {expr : Expr} (built : expr.isBare = false) :
    TookBare start stop expr := by
  cases expr <;> trivial

theorem TookBare.congr {start middle stop : Reader} {expr : Expr} (took : TookBare start middle expr)
    (rest : stop.rest = middle.rest) (leftovers : stop.leftovers = middle.leftovers) :
    TookBare start stop expr := by
  cases expr with
  | unidentified word trailing =>
    obtain ⟨tokens, shape, dropped, kept⟩ := took
    exact ⟨tokens, shape, rest.trans dropped, leftovers.trans kept⟩
  | newline =>
    obtain ⟨token, isBreak, shape, kept⟩ := took
    exact ⟨token, isBreak, by rw [rest]; exact shape, leftovers.trans kept⟩
  | _ => trivial

def Builds (parser : Parse Expr) (start : Reader) : Prop :=
  ∀ result stop, parser start = .ok result stop → result.isBare = false

/-- The parser returns `value` without taking a token, or something that is not bare. -/
def Wraps (parser : Parse Expr) (start : Reader) (value : Expr) : Prop :=
  ∀ result stop, parser start = .ok result stop →
    result = value ∧ stop.rest = start.rest ∧ stop.leftovers = start.leftovers ∨
      result.isBare = false

namespace Builds

theorem bind {α : Type} {parser : Parse α} {next : α → Parse Expr} {start : Reader}
    (back : ∀ value stop, Builds (next value) stop) : Builds (parser >>= next) start := by
  intro result stop done
  obtain ⟨value, middle, _, rest⟩ := bind_eq_ok done
  exact back value middle result stop rest

theorem pure {value : Expr} {start : Reader} (built : value.isBare = false) :
    Builds (Pure.pure value) start := by
  intro result stop done
  cases done
  exact built

theorem wraps {parser : Parse Expr} {start : Reader} {value : Expr} (builds : Builds parser start) :
    Wraps parser start value :=
  fun result stop done => .inr (builds result stop done)

end Builds

namespace Wraps

theorem pure {value : Expr} {start : Reader} : Wraps (Pure.pure value) start value := by
  intro result stop done
  cases done
  exact .inl ⟨rfl, rfl, rfl⟩

theorem builds {parser : Parse Expr} {start : Reader} {value : Expr} (wraps : Wraps parser start value)
    (built : value.isBare = false) : Builds parser start := by
  intro result stop done
  rcases wraps result stop done with ⟨rfl, _, _⟩ | other
  · exact built
  · exact other

theorem ifSees {accepted : Kind → Bool} {taken other : Parse Expr} {start : Reader} {value : Expr}
    (yes : Wraps taken start value) (no : Wraps other start value) :
    Wraps (do if ← Parse.sees accepted then taken else other) start value := by
  intro result stop done
  rw [bind_of_ok (Parse.sees_run accepted start)] at done
  split at done
  · exact yes result stop done
  · exact no result stop done

theorem ifCheck {accepted : Kind → Bool} {taken other : Parse Expr} {start : Reader} {value : Expr}
    (yes : Wraps taken start value) (no : Wraps other start value) :
    Wraps (do if ← Parse.check accepted then taken else other) start value := by
  intro result stop done
  rw [bind_of_ok (Parse.check_run accepted start)] at done
  split at done
  · exact yes result stop done
  · exact no result stop done

theorem ifAccept {kind : Kind} {taken : Parse Expr} {start : Reader} {value : Expr}
    (yes : ∀ stop, Builds taken stop) :
    Wraps (do if ← Parse.accept kind then taken else Pure.pure value) start value := by
  intro result stop done
  obtain ⟨accepted, middle, ran, rest⟩ := bind_eq_ok done
  unfold Parse.accept at ran
  rw [bind_of_ok (Parse.check_run _ start)] at ran
  split at ran
  · obtain ⟨_, _, _, ran'⟩ := bind_eq_ok ran
    cases ran'
    exact .inr (yes middle result stop rest)
  · cases ran
    cases rest
    exact .inl ⟨rfl, rfl, rfl⟩

theorem bind {parser : Parse Expr} {next : Expr → Parse Expr} {start : Reader} {value : Expr}
    (front : Wraps parser start value) (back : ∀ result stop, Wraps (next result) stop result) :
    Wraps (parser >>= next) start value := by
  intro result stop done
  obtain ⟨between, middle, ran, rest⟩ := bind_eq_ok done
  rcases front between middle ran with ⟨rfl, sameRest, sameLeftovers⟩ | built
  · rcases back between middle result stop rest with ⟨rfl, restAgain, leftoversAgain⟩ | built
    · exact .inl ⟨rfl, restAgain.trans sameRest, leftoversAgain.trans sameLeftovers⟩
    · exact .inr built
  · exact .inr ((back between middle).builds built result stop rest)

end Wraps

theorem Bare.bind {parser : Parse Expr} {next : Expr → Parse Expr} (bare : Bare parser)
    (wraps : ∀ value stop, Wraps (next value) stop value) : Bare (parser >>= next) := by
  intro start result stop done
  obtain ⟨value, middle, ran, rest⟩ := bind_eq_ok done
  rcases wraps value middle _ stop rest with ⟨rfl, sameRest, sameLeftovers⟩ | built
  · exact (bare start _ middle ran).congr sameRest sameLeftovers
  · exact .of_built built

/-- Where the parser returns a bare expression behind `token`, it is that token, and only the trivia behind
a word were taken. -/
def KeepsBare (token : Token) (parser : Parse Expr) : Prop :=
  ∀ start result stop, parser start = .ok result stop →
    TookBare { start with rest := token :: start.rest } stop result

theorem KeepsBare.of_builds {token : Token} {parser : Parse Expr}
    (builds : ∀ start, Builds parser start) : KeepsBare token parser :=
  fun start result stop done => .of_built (builds start result stop done)

theorem Bare.advance {next : Token → Parse Expr} (keeps : ∀ token, KeepsBare token (next token)) :
    Bare (Parse.advance >>= next) := by
  intro start result stop done
  obtain ⟨token, middle, ran, rest⟩ := bind_eq_ok done
  obtain ⟨tokens, shape, rfl⟩ := Parse.advance_run ran
  have took := keeps token _ result stop rest
  obtain ⟨startRest, canPair, allowed, leftovers⟩ := start
  cases shape
  exact took

namespace Parse

variable {rules : Rules}

theorem keepsBare_unidentified (token : Token) : KeepsBare token (unidentified token) := by
  intro start result stop ran
  unfold unidentified at ran
  rw [bind_of_ok (show (get : Parse Reader) start = .ok start start from rfl)] at ran
  split at ran
  · cases ran
    exact ⟨start.rest, rfl, rfl, rfl⟩
  · cases ran

theorem keepsBare_lineBreak {token : Token} (isBreak : token.kind = .newline) :
    KeepsBare token (do setCanPair false; return .newline) := by
  intro start result stop ran
  cases ran
  exact ⟨token, isBreak, rfl, rfl⟩

theorem builds_grouping (start : Reader) : Builds (grouping rules) start :=
  .bind fun _ _ => .bind fun _ _ => .bind fun _ _ => .bind fun _ _ => .pure rfl

theorem builds_array (start : Reader) : Builds (array rules) start :=
  .bind fun _ _ => .bind fun _ _ => .pure rfl

theorem bare_primary : Bare (primary rules) := by
  apply Bare.advance
  intro token
  split
  case h_6 => exact .of_builds builds_grouping
  case h_7 => exact .of_builds builds_array
  case h_8 isBreak => exact keepsBare_lineBreak isBreak
  case h_11 => exact keepsBare_unidentified token
  all_goals exact .of_builds fun _ => .bind fun _ _ => .pure rfl

theorem wraps_arguments (callee : Expr) (start : Reader) :
    Wraps (arguments rules callee) start callee :=
  .ifAccept fun _ => .bind fun _ _ => .bind fun _ _ => .bind fun _ _ => .pure rfl

theorem wraps_accesses (count : Nat) (owner : Expr) (start : Reader) :
    Wraps (accesses rules count owner) start owner := by
  induction count generalizing owner start with
  | zero => exact .pure
  | succ left ih =>
    unfold accesses
    apply Wraps.ifSees
    · apply Builds.wraps
      refine .bind fun _ _ => .bind fun _ _ => .bind fun _ _ => .bind fun _ stop => ?_
      exact (ih _ stop).builds rfl
    · apply Wraps.ifSees
      · apply Builds.wraps
        refine .bind fun _ _ => .bind fun _ _ => .bind fun _ _ => .bind fun _ stop => ?_
        exact (ih _ stop).builds rfl
      · exact .pure

theorem bare_call : Bare (call rules) :=
  bare_primary.bind fun callee start =>
    (wraps_arguments callee start).bind fun called stop => wraps_accesses rules.bound called stop

theorem bare_stepped : Bare (stepped rules) := by
  apply bare_call.bind
  intro operand start
  apply Wraps.ifCheck
  · exact (Builds.bind fun _ _ => .bind fun _ _ => .pure rfl).wraps
  · exact .pure

theorem bare_unary : Bare (unary rules) := by
  intro start result stop done
  unfold unary at done
  rw [bind_of_ok (check_run _ start)] at done
  split at done
  · obtain ⟨_, _, _, afterOperator⟩ := bind_eq_ok done
    obtain ⟨_, _, _, afterSlot⟩ := bind_eq_ok afterOperator
    obtain ⟨_, _, _, afterOperand⟩ := bind_eq_ok afterSlot
    cases afterOperand
    trivial
  · exact bare_stepped start result stop done

theorem wraps_chain (operand : Parse Expr) (joins : Kind → Bool) (count : Nat) (left : Expr)
    (start : Reader) : Wraps (chain operand joins count left) start left := by
  induction count generalizing left start with
  | zero => exact .pure
  | succ count ih =>
    unfold chain
    apply Wraps.ifSees
    · apply Builds.wraps
      refine .bind fun _ _ => .bind fun _ _ => .bind fun _ stop => ?_
      exact (ih _ stop).builds rfl
    · exact .pure

theorem bare_binary (tiers : List Tier) : Bare (binary rules tiers) := by
  induction tiers with
  | nil => exact bare_unary
  | cons tier tighter ih =>
    unfold binary
    apply ih.bind
    intro left start
    split
    · intro result stop done
      rw [bind_of_ok (show (get : Parse Reader) start = .ok start start from rfl)] at done
      split at done
      · exact wraps_chain _ _ _ left start result stop done
      · exact Wraps.pure result stop done
    · apply Wraps.ifCheck
      · exact (Builds.bind fun _ _ => .bind fun _ _ => .bind fun _ _ => .pure rfl).wraps
      · exact .pure

theorem bare_ternary : Bare (ternary rules) := by
  apply (bare_binary Tier.all).bind
  intro condition start
  apply Wraps.ifAccept
  intro stop
  exact .bind fun _ _ => .bind fun _ _ => .bind fun _ _ => .bind fun _ _ => .bind fun _ _ => .pure rfl

theorem wraps_completed (opening : Expr) (start : Reader) : Wraps (completed rules opening) start opening := by
  unfold completed
  split
  · split
    · refine Builds.wraps (.bind fun _ _ => .bind fun _ _ => .bind fun _ _ => ?_)
      exact .bind fun _ _ => .bind fun _ _ => .pure rfl
    · exact Builds.wraps (.bind fun _ _ => .bind fun _ _ => .bind fun _ _ => .pure rfl)
    · exact Builds.wraps (.bind fun _ _ => .bind fun _ _ => .bind fun _ _ => .pure rfl)
    · exact .pure
  · exact .pure

theorem bare_assignment : Bare (assignment rules) := by
  apply bare_ternary.bind
  intro opening start
  apply (wraps_completed opening start).bind
  intro target stop
  apply Wraps.ifCheck
  · exact (Builds.bind fun _ _ => .bind fun _ _ => .bind fun _ _ => .pure rfl).wraps
  · exact .pure

theorem expression_tookBreak {start stop : Reader} (done : expression rules start = .ok .newline stop) :
    TookBreak start stop := by
  obtain ⟨_, allowed, ran, done⟩ := bind_eq_ok done
  cases ran
  obtain ⟨value, middle, assigned, done⟩ := bind_eq_ok done
  obtain ⟨_, paired, ran, done⟩ := bind_eq_ok done
  cases ran
  obtain ⟨_, closed, ran, done⟩ := bind_eq_ok done
  cases ran
  cases done
  exact bare_assignment _ _ middle assigned

end Parse

end GmlLayout
