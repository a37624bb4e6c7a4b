import GmlLayout.Proofs.Grammar.Completeness
import GmlLayout.Proofs.Layout.Ink

/-!
Formatting need not settle. A comment at the end of a line takes in whatever is written behind it on that
line, and the closing parenthesis of a call is written there. The next pass misses the parenthesis and
closes the call once more, so the text grows with every pass.
-/

namespace GmlLayout

open Print

def runaway (body : List Char) : String :=
  String.ofList ("f(a //".toList ++ body ++ ['\n'])

def runawayComment (body : List Char) : Token :=
  ⟨.lineComment, .text (String.ofList ("//".toList ++ body)), 0, 4⟩

def runawayTokens (body : List Char) (column : Nat) : List Token :=
  [⟨.identifier, .text "f", 0, 0⟩, ⟨.symbol .leftParen, .none, 0, 1⟩, ⟨.identifier, .text "a", 0, 2⟩,
    runawayComment body, ⟨.newline, .hint 0, 0, column⟩]

def runawayCall (body : List Char) (column : Nat) : Expr :=
  .call (.identifier ⟨.identifier, .text "f", 0, 0⟩ []) []
    ⟨[⟨.identifier ⟨.identifier, .text "a", 0, 2⟩
      [runawayComment body, ⟨.newline, .hint 0, 0, column⟩], []⟩], false⟩ []

theorem read_runaway {body : List Char} (inline : '\n' ∉ body) :
    Munch.read '/' ('/' :: (body ++ ['\n'])) = ⟨.lineComment, "//".toList ++ body, ['\n']⟩ := by
  have unbroken : ∀ c ∈ '/' :: body, (c != '\n') = true := by
    intro c member
    obtain rfl | member := List.mem_cons.mp member
    · decide
    · simp only [bne_iff_ne]
      rintro rfl
      exact inline member
  have line : Munch.lineEnd ('/' :: body ++ ['\n']) = ('/' :: body, ['\n']) := by
    unfold Munch.lineEnd Munch.run
    rw [List.takeWhile_append_of_pos unbroken, List.dropWhile_append_of_pos unbroken]
    simp
  show Munch.ofSplit .lineComment ['/'] (Munch.lineEnd ('/' :: body ++ ['\n'])) = _
  rw [line]
  rfl

theorem scan_runaway {body : List Char} (inline : '\n' ∉ body) :
    ∃ column, scan (runaway body) = runawayTokens body column := by
  have length : ("f(a //".toList ++ body ++ ['\n']).length = body.length + 7 := by simp
  have unbroken : ("//".toList ++ body).count '\n' = 0 := by
    rw [List.count_append, List.count_eq_zero.mpr inline]
    rfl
  have step : ∃ column, Cursor.next ⟨' ' :: '/' :: '/' :: (body ++ ['\n']), 3, 0, 3⟩ =
      (some (runawayComment body), ⟨['\n'], 4 + ("//".toList ++ body).length, 0, column⟩) := by
    refine ⟨Cursor.columnAfter 4 ("//".toList ++ body), ?_⟩
    show ((some ⟨(Munch.read '/' ('/' :: (body ++ ['\n']))).kind,
      (Munch.read '/' ('/' :: (body ++ ['\n']))).payload, 0, 4⟩ : Option Token),
      Cursor.advance ⟨'/' :: '/' :: (body ++ ['\n']), 4, 0, 4⟩
        (Munch.read '/' ('/' :: (body ++ ['\n'])))) = _
    rw [read_runaway inline]
    unfold Cursor.advance
    rw [unbroken]
    rfl
  obtain ⟨column, step⟩ := step
  refine ⟨column, ?_⟩
  unfold scan runaway
  rw [String.toList_ofList, length]
  show ⟨.identifier, .text "f", 0, 0⟩ :: ⟨.symbol .leftParen, .none, 0, 1⟩ ::
    ⟨.identifier, .text "a", 0, 2⟩ ::
      Cursor.tokens (body.length + 4) ⟨' ' :: '/' :: '/' :: (body ++ ['\n']), 3, 0, 3⟩ = _
  rw [Cursor.tokens, step]
  rfl

theorem parse_runaway {body : List Char} (inline : '\n' ∉ body) :
    ∃ column, parse (runaway body) = .ok [.expression (runawayCall body column) false] := by
  obtain ⟨column, scanned⟩ := scan_runaway inline
  refine ⟨column, ?_⟩
  unfold parse
  rw [scanned]
  rfl

theorem after_runawayCall (body : List Char) (column : Nat) :
    after (expr (runawayCall body column)) (Page.blank {}) =
      { settings := {}
        buffer := [.space, .text ")", .text (runawayComment body).lexeme, .space, .text "a", .text "(",
          .text "f"] } := by
  have shown : Fragment.ofText (runawayComment body).lexeme = .text (runawayComment body).lexeme := by
    have head : (runawayComment body).lexeme.toList.head? = some '/' := by
      simp [runawayComment, Token.lexeme]
    have other : ∀ blank : String, blank.toList.head? ≠ some '/' →
        (runawayComment body).lexeme ≠ blank := by
      intro blank starts same
      rw [← same] at starts
      exact starts head
    simp [Fragment.ofText, other " " (by decide), other "\t" (by decide), other "\n" (by decide)]
  have argument : after (expr (.identifier ⟨.identifier, .text "a", 0, 2⟩
      [runawayComment body, ⟨.newline, .hint 0, 0, column⟩]))
        { settings := {}, buffer := [.text "(", .text "f"] } =
      { settings := {}
        buffer := [.newline, .text (runawayComment body).lexeme, .space, .text "a", .text "(",
          .text "f"] } := by
    show (Page.newline (Page.push { settings := {}, buffer := [.space, .text "a", .text "(", .text "f"] }
      (Fragment.ofText (runawayComment body).lexeme)) .stay).setLineEnded false = _
    rw [shown]
    rfl
  show after (closeExpression []) (after (closeCall false [⟨.identifier ⟨.identifier, .text "a", 0, 2⟩
    [runawayComment body, ⟨.newline, .hint 0, 0, column⟩], []⟩])
      (after (closeEntry false false false true []) (after (expr (.identifier ⟨.identifier, .text "a", 0, 2⟩
        [runawayComment body, ⟨.newline, .hint 0, 0, column⟩]))
          { settings := {}, buffer := [.text "(", .text "f"] }))) = _
  rw [argument]
  rfl

theorem toText_runaway (body : List Char) :
    Buffer.toText [.newline, .text ";", .text ")", .text (runawayComment body).lexeme, .space,
      .text "a", .text "(", .text "f"] = runaway (body ++ ");".toList) := by
  have lists : ["f", "(", "a", " ", String.ofList ("//".toList ++ body), ")", ";", "\n"].flatMap
      String.toList = "f(a //".toList ++ (body ++ ");".toList) ++ ['\n'] := by
    simp only [List.flatMap_cons, List.flatMap_nil, String.toList_ofList, List.append_assoc,
      List.append_nil]
    rfl
  unfold runaway
  rw [← lists, ← String.toList_join, String.ofList_toList]
  rfl

theorem format_runaway {body : List Char} (inline : '\n' ∉ body) :
    format {} (runaway body) = .ok (runaway (body ++ ");".toList)) := by
  obtain ⟨column, parsed⟩ := parse_runaway inline
  have laid : (layOut {} [.expression (runawayCall body column) false]).buffer =
      [.newline, .text ";", .text ")", .text (runawayComment body).lexeme, .space, .text "a", .text "(",
        .text "f"] := by
    show (after finish (after (terminate false) (after (expr (runawayCall body column))
      (Page.blank {})))).buffer = _
    rw [after_runawayCall]
    rfl
  have text : (layOut {} [.expression (runawayCall body column) false]).output =
      runaway (body ++ ");".toList) := by
    unfold Page.output
    rw [laid, toText_runaway]
  unfold format
  rw [parsed]
  exact congrArg Except.ok text

theorem formatAgain_runaway {body : List Char} (inline : '\n' ∉ body) (times : Nat) :
    formatAgain {} times (runaway body) = (List.range times).map fun pass =>
      .ok (runaway (body ++ (List.replicate (pass + 1) ");".toList).flatten)) := by
  induction times generalizing body with
  | zero => rfl
  | succ times ih =>
    have stillInline : '\n' ∉ body ++ ");".toList := by
      rw [List.mem_append, not_or]
      exact ⟨inline, by decide⟩
    rw [formatAgain, format_runaway inline, List.range_succ_eq_map, List.map_cons, List.map_map]
    simp only
    rw [ih stillInline]
    simp [List.replicate_succ, Function.comp_def]

/-- A second pass over an ordinary call changes what the first one made of it. -/
theorem format_not_idempotent : ∃ once twice,
    format {} "f(a // c\n);" = .ok once ∧ format {} once = .ok twice ∧ twice ≠ once := by
  have first : ∃ once, format {} "f(a // c\n);" = .ok once ∧ once = "f(a // c);\n" :=
    exists_ok (by decide +kernel)
  have second : ∃ twice, format {} "f(a // c);\n" = .ok twice ∧ twice ≠ "f(a // c);\n" :=
    exists_ok (by decide +kernel)
  obtain ⟨once, formatted, rfl⟩ := first
  obtain ⟨twice, formattedAgain, changed⟩ := second
  exact ⟨_, twice, formatted, formattedAgain, changed⟩

end GmlLayout
