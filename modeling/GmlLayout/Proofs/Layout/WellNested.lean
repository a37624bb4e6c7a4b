import GmlLayout.Proofs.Grammar.Completeness
import GmlLayout.Proofs.Layout.Punctuation
import GmlLayout.Proofs.Layout.Reread

/-!
When the semicolons of a layout split no construct. It is enough that every place where the layout may
write one is a place for a semicolon; which statements end inside a bracket can be seen from the tree.
-/

namespace GmlLayout

open Print

/-- Every place at which a statement of the program may get a semicolon is one for a semicolon. -/
def housesSemicolons (program : List Stmt) : Bool :=
  wellNested (keptInk isNestMark (Stmt.listPunctuated program))

theorem filter_isBracketMark (texts : List String) :
    (texts.filter isNestMark).filter isBracketMark = texts.filter isBracketMark := by
  rw [List.filter_filter]
  refine List.filter_congr fun text _ => ?_
  cases marked : isNestMark text <;> simp [isBracketMark, marked]

theorem layOut_adds (settings : Settings) (program : List Stmt) :
    ((layOut settings program).kept isNestMark).Sublist
      (keptInk isNestMark (Stmt.listPunctuated program)) := by
  have finished : (layOut settings program).kept isNestMark =
      (after (stmts program) (Page.blank settings)).kept isNestMark := kept_finish _
  rw [finished]
  exact adds_stmts program (Page.blank settings)

theorem layOut_brackets {settings : Settings} {program : List Stmt}
    (untorn : (tornTexts settings program).filter isBracketMark = []) :
    (layOut settings program).kept isBracketMark = keptInk isBracketMark (Stmt.listLeaves program) := by
  obtain ⟨order, whole⟩ := @layOut_laid isBracketMark rfl settings program
  rw [untorn, List.append_nil] at whole
  exact order.eq_of_length whole.length_eq

theorem layOut_wellNested {settings : Settings} {program : List Stmt}
    (housed : housesSemicolons program = true)
    (untorn : (tornTexts settings program).filter isBracketMark = []) :
    wellNested ((layOut settings program).kept isNestMark) = true := by
  refine wellNested_of_sublist (layOut_adds settings program) ?_ housed
  calc ((layOut settings program).kept isNestMark).filter isBracketMark
    _ = (layOut settings program).kept isBracketMark := filter_isBracketMark _
    _ = keptInk isBracketMark (Stmt.listLeaves program) := layOut_brackets untorn
    _ = keptInk isBracketMark (Stmt.listPunctuated program) := (Stmt.keptInk_listPunctuated rfl program).symm
    _ = (keptInk isNestMark (Stmt.listPunctuated program)).filter isBracketMark := (filter_isBracketMark _).symm

theorem isNestMark_eq_false {text : String} {c : Char} {others : List Char} (shape : text.toList = c :: others)
    (isPart : (c.isDigit || c == '.') = true) : isNestMark text = false := by
  unfold isNestMark NestMark.ofText?
  split <;> first | rfl | (cases shape; cases isPart)

namespace Buffer

theorem marks_joined (buffer : Buffer) : buffer.joined.ink.filter isNestMark = buffer.ink.filter isNestMark := by
  fun_induction joined buffer with
  | case1 => rfl
  | case2 second first earlier isNumber ih =>
    have append : (first ++ second).toList = first.toList ++ second.toList := String.toList_append
    have unmarked : isNestMark first = false ∧ isNestMark second = false ∧
        isNestMark (first ++ second) = false := by
      obtain ⟨zero, digit, digits, dotted, _⟩ | ⟨zero, digit, others, dotted, starts⟩ :=
        shapes_of_completes isNumber
      · rw [zero] at append
        exact ⟨isNestMark_eq_false zero rfl, isNestMark_eq_false dotted rfl, isNestMark_eq_false append rfl⟩
      · have isPart : (digit.isDigit || digit == '.') = true := by rw [starts]; rfl
        rw [dotted] at append
        exact ⟨isNestMark_eq_false dotted isPart, isNestMark_eq_false zero rfl,
          isNestMark_eq_false append isPart⟩
    simp [ink, Fragment.ink, ih, unmarked]
  | case3 second first earlier twoTokens ih => rw [ink, List.filter_append, ih, ← List.filter_append, ← ink]
  | case4 fragment earlier other ih => rw [ink, List.filter_append, ih, ← List.filter_append, ← ink]

end Buffer

theorem marks_visibleTexts (source : String) :
    (visibleTexts source).filter isNestMark = ((scan source).map Token.lexeme).filter isNestMark := by
  rw [visibleTexts, List.filter_map, List.filter_map, List.filter_filter]
  refine congrArg (List.map Token.lexeme) (List.filter_congr fun token scanned => ?_)
  by_cases newline : token.kind = .newline
  · have lexeme : token.lexeme = "\n" := by
      rw [lexeme_eq_fixedText scanned (by rw [newline]; rfl), newline]
      rfl
    simp only [Function.comp_apply, lexeme]
    rfl
  · simp [newline]

/-- If all places for semicolons are fit and no bracket is torn out, the formatted text has the brackets of
the program, all of them match, and every semicolon has its place: in a block, in the header of a `for`
loop or outside of all brackets, and not behind the parameters of a function. This holds of what is
written, and of what is read back as far as the scanner finds the marks that were written. It finds all of them
if the tokens stay apart, the remarks are sheltered and every token of the source has come to its end. -/
theorem format_wellNested (settings : Settings) {source : String} {program : List Stmt}
    (parsed : parse source = .ok program) (housed : housesSemicolons program = true)
    (untorn : (tornTexts settings program).filter isBracketMark = []) :
    format settings source = .ok (layOut settings program).output ∧
      (layOut settings program).buffer.ink.filter isBracketMark =
        keptInk isBracketMark (Stmt.listLeaves program) ∧
      wellNested (layOut settings program).buffer.ink = true ∧
      (((scan (layOut settings program).output).map Token.lexeme).filter isNestMark =
          (layOut settings program).buffer.ink.filter isNestMark →
        wellNested ((scan (layOut settings program).output).map Token.lexeme) = true) ∧
      ((∀ token ∈ scan source, token.isEnded = true) → separatesRemarks program = true →
        sheltersRemarks program = true →
        wellNested ((scan (layOut settings program).output).map Token.lexeme) = true) := by
  have nested := layOut_wellNested housed untorn
  have reread : ((scan (layOut settings program).output).map Token.lexeme).filter isNestMark =
        (layOut settings program).buffer.ink.filter isNestMark →
      wellNested ((scan (layOut settings program).output).map Token.lexeme) = true := by
    intro rescanned
    rw [← wellNested_filter, rescanned]
    exact nested
  refine ⟨by rw [format, parsed]; rfl, layOut_brackets untorn, ?_, reread, fun ended separate sheltered => ?_⟩
  · rw [← wellNested_filter]
    exact nested
  · refine reread ?_
    rw [← marks_visibleTexts, visibleTexts_output settings parsed ended separate sheltered, Buffer.marks_joined]

/-- The last argument of a call is a function, a comment stands behind it, a loop has a header, and statements
stand without braces. -/
theorem format_wellNested_lambda : ∃ output, format {}
    "f(.5, function(x) \x7b a() \x7d) // c\nfor (var i = 0; i < 3; i++) if (b[? i]) d = [1., (i)] else e()" =
      .ok output ∧
    output =
      "f(0.5, function(x) \x7b a() \x7d) // c\nfor (var i = 0; i < 3; i++) if (b[? i]) d = [1.0, (i)]; else e();\n" ∧
    wellNested ((scan output).map Token.lexeme) = true := by
  have checked : ∃ program, parse
      "f(.5, function(x) \x7b a() \x7d) // c\nfor (var i = 0; i < 3; i++) if (b[? i]) d = [1., (i)] else e()" =
        .ok program ∧
      housesSemicolons program = true ∧ (tornTexts {} program).filter isBracketMark = [] ∧
      separatesRemarks program = true ∧ sheltersRemarks program = true ∧
      (layOut {} program).output =
        "f(0.5, function(x) \x7b a() \x7d) // c\nfor (var i = 0; i < 3; i++) if (b[? i]) d = [1.0, (i)]; else e();\n" :=
    exists_ok (by decide +kernel)
  have ended : ∀ token ∈ scan
      "f(.5, function(x) \x7b a() \x7d) // c\nfor (var i = 0; i < 3; i++) if (b[? i]) d = [1., (i)] else e()",
      token.isEnded = true := by decide +kernel
  obtain ⟨program, parsed, housed, untorn, separate, sheltered, output⟩ := checked
  obtain ⟨formatted, _, _, _, nested⟩ := format_wellNested {} parsed housed untorn
  exact ⟨_, formatted, output, nested ended separate sheltered⟩

/-- A function that is not the last argument of its call: behind the body the rest of the call is laid out
as statements of its own, and the comma gets a semicolon inside the call's parentheses. -/
theorem semicolon_inside_call : ∃ output, format {} "f(function() \x7b\x7d, 1);" = .ok output ∧
    wellNested ((scan "f(function() \x7b\x7d, 1);").map Token.lexeme) = true ∧
    (scan output).map Token.lexeme =
      ["f", "(", "function", "(", ")", "\x7b", "\x7d", ","] ++ ";" :: ["\n", "1", ";", "\n", ")", ";", "\n"] ∧
    (Nest.run {} ["f", "(", "function", "(", ")", "\x7b", "\x7d", ","]).map Nest.brackets = some [.group] :=
  exists_ok (by decide +kernel)

end GmlLayout
