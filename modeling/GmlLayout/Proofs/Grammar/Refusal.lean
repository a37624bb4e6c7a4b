import GmlLayout.Proofs.Grammar.Termination

/-!
Where a source is refused. The error points at a token, and what stands in front of that token has been
read; or it points nowhere, and everything has been read. What follows the token has no part in the
refusal: every source that starts with the same tokens is refused in the same way.
-/

namespace GmlLayout

namespace ParseError

theorem diagnostic_of_unnamed {cause : ParseError} (unnamed : cause.token? = none) :
    cause.diagnostic.line = none ∧ cause.diagnostic.column = none := by
  rw [eq_unexpectedEnd unnamed]
  exact ⟨rfl, rfl⟩

theorem diagnostic_of_named {cause : ParseError} {token : Token} (named : cause.token? = some token) :
    cause.diagnostic.line = some (token.line + 1) ∧
      cause.diagnostic.column = some (token.column + 1) ∧
      cause.diagnostic.details = [("token", token.kind.name)] := by
  cases cause with
  | unexpectedEnd => cases named
  | unexpectedToken culprit | unknownInSwitch culprit =>
    cases named
    exact ⟨rfl, rfl, rfl⟩

end ParseError

theorem exists_of_parse_eq_error {source : String} {cause : ParseError}
    (refused : parse source = .error cause) :
    ∃ stop, parseTokens (scan source) = .error cause stop := by
  rw [parse_eq_outcome] at refused
  cases ran : parseTokens (scan source) with
  | ok program stop =>
    rw [ran] at refused
    cases refused
  | error other stop =>
    rw [ran] at refused
    cases refused
    exact ⟨stop, rfl⟩

theorem alike_program {most bound other : Nat} (enough : most ≤ bound) (enoughOther : most ≤ other) :
    Alike most false [] (Parse.program (Rules.upTo bound).statement bound)
      (Parse.program (Rules.upTo other).statement other) :=
  .program ((Rules.reaches_upTo enough).alike (Rules.reaches_upTo enoughOther)).statement
    (.of_le enough enoughOther)

theorem parseTokens_located {tokens : List Token} {cause : ParseError} {stop : Reader}
    (failed : parseTokens tokens = .error cause stop) : cause.Located tokens stop.rest :=
  ((alike_program (Nat.le_refl tokens.length) (Nat.le_refl tokens.length)).refuses
    (Nat.le_refl _) failed).1

/-- Other tokens that start with the same ones, up to the token that the error names, are refused too. -/
theorem parseTokens_local {tokens before others : List Token} {token : Token} {cause : ParseError}
    {stop : Reader} (failed : parseTokens tokens = .error cause stop)
    (named : cause.token? = some token) (split : tokens = before ++ token :: stop.rest)
    (shares : before ++ [token] <+: others) :
    Parse.outcome (parseTokens others) = .error cause := by
  have covers : tokens.length ≤ max tokens.length others.length := Nat.le_max_left _ _
  have coversOther : others.length ≤ max tokens.length others.length := Nat.le_max_right _ _
  generalize max tokens.length others.length = bound at covers coversOther
  obtain ⟨stop', failed', left⟩ :=
    (alike_program (Nat.le_refl tokens.length) covers).refuses_same (Nat.le_refl _) failed
  have same : others.take (before.length + 1) = tokens.take (before.length + 1) := by
    obtain ⟨behind, rfl⟩ := shares
    rw [split, List.append_assoc, List.take_length_add_append, List.take_length_add_append]
    rfl
  have within : cause.Within (before.length + 1) tokens stop'.rest := by
    refine ⟨?_, fun unnamed => by rw [named] at unnamed; cases unnamed⟩
    have count := congrArg List.length split
    rw [List.length_append, List.length_cons] at count
    have behind : stop'.rest.length = tokens.length - (tokens.length - stop.rest.length) := by
      rw [left, List.length_drop]
    omega
  obtain ⟨_, again⟩ := (alike_program (Nat.le_refl bound) (Nat.le_refl bound)).refuses covers failed'
  obtain ⟨stop'', failed'', _⟩ := again coversOther same within
  rw [← outcome_program (Rules.reaches_upTo coversOther) coversOther, failed'']
  rfl

/-- A refusal is located and local. Either it has no position and all tokens have been read, or it points
at a token in front of which all have been read, and every source whose tokens are the same up to and
including that one is refused with the same error. -/
theorem parse_error_local {source : String} {cause : ParseError} (refused : parse source = .error cause) :
    ∃ stop, parseTokens (scan source) = .error cause stop ∧
      ((cause.diagnostic.line = none ∧ cause.diagnostic.column = none ∧ stop.rest = []) ∨
        ∃ before token, scan source = before ++ token :: stop.rest ∧
          cause.diagnostic.line = some (token.line + 1) ∧
          cause.diagnostic.column = some (token.column + 1) ∧
          cause.diagnostic.details = [("token", token.kind.name)] ∧
          ∀ other : String, before ++ [token] <+: scan other → parse other = .error cause) := by
  obtain ⟨stop, failed⟩ := exists_of_parse_eq_error refused
  have located := parseTokens_located failed
  refine ⟨stop, failed, ?_⟩
  cases named : cause.token? with
  | none =>
    simp only [ParseError.Located, named] at located
    obtain ⟨line, column⟩ := ParseError.diagnostic_of_unnamed named
    exact .inl ⟨line, column, located⟩
  | some token =>
    simp only [ParseError.Located, named] at located
    obtain ⟨before, split⟩ := located
    obtain ⟨line, column, details⟩ := ParseError.diagnostic_of_named named
    refine .inr ⟨before, token, split, line, column, details, fun other shares => ?_⟩
    rw [parse_eq_outcome]
    exact parseTokens_local failed named split shares

/-- A switch with a statement between its branches is refused there, whatever comes next. -/
theorem parse_error_local_switch : ∃ cause stop before token,
    parse "switch (x) \x7b y \x7d" = .error cause ∧
      cause = .unknownInSwitch ⟨.identifier, .text "y", 0, 13⟩ ∧
      parseTokens (scan "switch (x) \x7b y \x7d") = .error cause stop ∧
      scan "switch (x) \x7b y \x7d" = before ++ token :: stop.rest ∧
      cause.diagnostic.line = some (token.line + 1) ∧
      cause.diagnostic.column = some (token.column + 1) ∧
      cause.diagnostic.details = [("token", token.kind.name)] ∧
      ∀ other : String, before ++ [token] <+: scan other → parse other = .error cause := by
  have checked : (match parse "switch (x) \x7b y \x7d" with
      | .ok _ => none
      | .error cause => some cause) = some (.unknownInSwitch ⟨.identifier, .text "y", 0, 13⟩) := by
    decide +kernel
  split at checked
  · cases checked
  · rename_i cause refused
    cases checked
    obtain ⟨stop, failed, ⟨unplaced, _⟩ | ⟨before, token, split, placed⟩⟩ := parse_error_local refused
    · cases unplaced
    · exact ⟨_, stop, before, token, refused, rfl, failed, split, placed⟩

end GmlLayout
