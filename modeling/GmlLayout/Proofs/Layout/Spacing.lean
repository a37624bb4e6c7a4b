import GmlLayout.Proofs.Grammar.Completeness
import GmlLayout.Proofs.Grammar.StatementForms
import GmlLayout.Proofs.Grammar.UniformRules
import GmlLayout.Proofs.Layout.Places
import GmlLayout.Proofs.Token.Respacing

/-!
How wide the gaps of a source are has no part in its formatted text. Other gaps move the tokens and
nothing else, the grammar and the layout do not look at places, so two sources that differ in their gaps
are formatted alike, or are refused for the same reason at corresponding tokens.
-/

namespace GmlLayout

open Munch

/-- Sources with the same tokens, wherever they stand, are parsed to the same tree or refused alike. -/
theorem parse_unplaced {source other : String}
    (same : (scan source).map Token.unplaced = (scan other).map Token.unplaced) :
    (∃ program others, parse source = .ok program ∧ parse other = .ok others ∧
      Stmt.mapList Token.unplaced program = Stmt.mapList Token.unplaced others) ∨
    ∃ cause others, parse source = .error cause ∧ parse other = .error others ∧
      cause.mapTokens Token.unplaced = others.mapTokens Token.unplaced := by
  have first := parseTokens_map Token.kind_unplaced (scan source)
  have second := parseTokens_map Token.kind_unplaced (scan other)
  rw [same, second] at first
  unfold parse
  cases ran : parseTokens (scan source) with
  | ok program stop =>
    cases ranOther : parseTokens (scan other) with
    | ok others stopOther =>
      rw [ran, ranOther, mapOutcome, mapOutcome, EStateM.Result.ok.injEq] at first
      exact .inl ⟨program, others, rfl, rfl, first.1.symm⟩
    | error cause stopOther =>
      rw [ran, ranOther] at first
      cases first
  | error cause stop =>
    cases ranOther : parseTokens (scan other) with
    | ok others stopOther =>
      rw [ran, ranOther] at first
      cases first
    | error others stopOther =>
      rw [ran, ranOther, mapOutcome, mapOutcome, EStateM.Result.error.injEq] at first
      exact .inr ⟨cause, others, rfl, rfl, first.1.symm⟩

theorem format_of_parse {source : String} {program : List Stmt} (parsed : parse source = .ok program)
    (settings : Settings) : format settings source = .ok (layOut settings program).output := by
  unfold format
  rw [parsed]
  rfl

theorem parse_of_tokens {source : String} {tokens : List Token} {program : List Stmt} {stop : Reader}
    (same : (scan source).map Token.unplaced = tokens.map Token.unplaced)
    (read : parseTokens tokens = .ok program stop) : ∃ found, parse source = .ok found ∧
      Stmt.mapList Token.unplaced found = Stmt.mapList Token.unplaced program := by
  have scanned := parseTokens_map Token.kind_unplaced (scan source)
  rw [same, parseTokens_map Token.kind_unplaced tokens, read] at scanned
  unfold parse
  cases ran : parseTokens (scan source) with
  | ok found foundStop =>
    rw [ran, mapOutcome, mapOutcome, EStateM.Result.ok.injEq] at scanned
    exact ⟨found, rfl, scanned.1.symm⟩
  | error cause foundStop =>
    rw [ran] at scanned
    cases scanned

theorem format_of_tokens {source : String} {tokens : List Token} {program : List Stmt} {stop : Reader}
    (same : (scan source).map Token.unplaced = tokens.map Token.unplaced)
    (read : parseTokens tokens = .ok program stop) (settings : Settings) :
    format settings source = .ok (layOut settings program).output := by
  obtain ⟨found, parsed, unplaced⟩ := parse_of_tokens same read
  rw [format_of_parse parsed, ← layOut_unplaced settings (parse_formed parsed), unplaced,
    layOut_unplaced settings (parseTokens_formed read)]

theorem format_eq_of_unplaced {source other : String} {program : List Stmt}
    (same : (scan source).map Token.unplaced = (scan other).map Token.unplaced)
    (parsed : parse source = .ok program) (settings : Settings) :
    format settings source = format settings other := by
  obtain ⟨found, others, first, second, alike⟩ | ⟨cause, _, refused, _⟩ := parse_unplaced same
  · rw [format_of_parse first, format_of_parse second, ← layOut_unplaced settings (parse_formed first), alike,
      layOut_unplaced settings (parse_formed second)]
  · cases parsed.symm.trans refused

/-- Sources that differ in their gaps only have one formatted text, or both are refused, for the same
reason and at the same token but for its place. -/
theorem format_respaced {source other : String}
    (respaced : Respaced none source.toList other.toList) (settings : Settings) :
    (∃ output, format settings source = .ok output ∧ format settings other = .ok output) ∨
    ∃ cause others, format settings source = .error cause ∧ format settings other = .error others ∧
      cause.mapTokens Token.unplaced = others.mapTokens Token.unplaced := by
  have tokens := scan_respaced respaced
  obtain ⟨program, _, parsed, _⟩ | ⟨cause, others, refused, refusedOther, same⟩ := parse_unplaced tokens
  · left
    have formatted := format_of_parse parsed settings
    exact ⟨_, formatted, (format_eq_of_unplaced tokens parsed settings).symm.trans formatted⟩
  · right
    unfold format
    rw [refused, refusedOther]
    exact ⟨cause, others, rfl, rfl, same⟩

theorem respaced_assignment : Respaced none "x=1 \n y".toList "\tx = 1\n y".toList := by
  have blank : ∀ {gap : List Char}, gap.all isGap = true → ∀ c ∈ gap, isGap c = true := List.all_eq_true.mp
  have last : Respaced (some (read '\n' " y".toList)) "y".toList "y".toList :=
    @Respaced.token _ [] [] [] [] 'y' (blank rfl) (by decide) ⟨blank rfl, .inl rfl⟩
      (.finish (blank rfl) ⟨blank rfl, .inl rfl⟩)
  have broken : Respaced (some (read '1' " \n y".toList)) " \n y".toList "\n y".toList :=
    @Respaced.token _ [' '] [] " y".toList "y".toList '\n' (blank rfl) (by decide)
      ⟨blank rfl, .inr ⟨by decide, by decide⟩⟩ last
  have number : Respaced (some (read '=' "1 \n y".toList)) "1 \n y".toList " 1\n y".toList :=
    @Respaced.token _ [] [' '] " \n y".toList "\n y".toList '1' (blank rfl) (by decide)
      ⟨blank rfl, .inr ⟨by decide, by decide⟩⟩ broken
  have equals : Respaced (some (read 'x' "=1 \n y".toList)) "=1 \n y".toList " = 1\n y".toList :=
    @Respaced.token _ [] [' '] "1 \n y".toList " 1\n y".toList '=' (blank rfl) (by decide)
      ⟨blank rfl, .inr ⟨by decide, by decide⟩⟩ number
  exact @Respaced.token none [] ['\t'] "=1 \n y".toList " = 1\n y".toList 'x' (blank rfl) (by decide)
    ⟨blank rfl, .inr trivial⟩ equals

theorem format_respaced_assignment :
    Respaced none "x=1 \n y".toList "\tx = 1\n y".toList ∧
      ∃ output, format {} "x=1 \n y" = .ok output ∧ format {} "\tx = 1\n y" = .ok output ∧
        output = "x = 1;\ny;\n" := by
  have formatted : ∃ output, format {} "x=1 \n y" = .ok output ∧ output = "x = 1;\ny;\n" :=
    exists_ok (by decide +kernel)
  obtain ⟨text, read, expected⟩ := formatted
  obtain ⟨output, first, second⟩ | ⟨cause, others, refused, _⟩ := format_respaced respaced_assignment {}
  · obtain rfl := Except.ok.inj (first.symm.trans read)
    exact ⟨respaced_assignment, output, first, second, expected⟩
  · cases refused.symm.trans read

end GmlLayout
