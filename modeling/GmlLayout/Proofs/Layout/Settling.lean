import GmlLayout.Proofs.Grammar.Grading
import GmlLayout.Proofs.Layout.CanonicalText
import GmlLayout.Proofs.Layout.RoundTrip
import GmlLayout.Proofs.Layout.SimpleLayout

/-!
A program of simple expressions settles: its formatted text is formatted as itself. What is laid out for
it are rows, each a plain expression with its semicolon and at most two line breaks behind it. The text of
such rows is read as closed statements and line breaks, and for these the same rows are laid out.
-/

namespace GmlLayout

open Piece (mark)

/-- A line break that is a statement of its own, or a simple expression that does not look like an index
of what is above it. -/
def Stmt.isSimple : Stmt → Bool
  | .expression .newline closed => !closed
  | .expression expr closed => expr.isSimple (!closed) && expr.opening ≠ some (.symbol .leftBracket)
  | _ => false

structure SettledRow (row : Expr × Nat) : Prop where
  plain : Plain .assignment row.1
  unbracketed : row.1.opening ≠ some (.symbol .leftBracket)
  few : row.2 ≤ 2

theorem append_statementPieces (old : List Piece) (expr : Expr) (breaks : Nat) :
    old ++ expr.statementPieces breaks = old ++ expr.pieces ++ [mark .semicolon] ++ separator breaks := by
  simp [Expr.statementPieces]

theorem rowPieces_snoc (rows : List (Expr × Nat)) (expr : Expr) (breaks : Nat) :
    rowPieces (rows ++ [(expr, breaks)]) = rowPieces rows ++ expr.statementPieces breaks := by
  simp [rowPieces]

namespace Print

open Page

variable {page : Page} {pieces : List Piece} {rows : List (Expr × Nat)}

theorem endsShown_semicolon (old : List Piece) : EndsShown (old ++ [mark .semicolon]) :=
  .snoc (shown_mark (by decide)) old

theorem run_breakStatement_behind (ready : page.Ready) (ends : EndsShown pieces) {breaks : Nat}
    (few : breaks ≤ 2) : (stmt .lineBreak).run (page.weave (pieces ++ separator breaks)) =
      ((), page.weave (pieces ++ separator (min (breaks + 1) 2))) := by
  have running : (page.weave (pieces ++ separator breaks)).lineEnded = false := ready.running
  rw [run_breakStatement running, newline_separator ready.unmoved ends few]

theorem run_breakStatement_above (settings : Settings) :
    (stmt .lineBreak).run (Page.blank settings) = ((), Page.blank settings) :=
  run_breakStatement rfl

/-- A simple expression without a semicolon gets one, and keeps at most two of its line breaks. -/
theorem exists_row {source : String} {expr : Expr} {closed : Bool} (simple : expr.isSimple (!closed) = true)
    (read : expr.IsRead source) (ready : page.Ready) (frameless : page.frames = []) (old : List Piece) :
    ∃ breaks ≤ 2, (stmt (.expression expr closed)).run (page.weave old) =
      ((), page.weave (old ++ expr.bare.statementPieces breaks)) := by
  have plain := Expr.plain_any (Expr.plain_bare simple read)
  have same : ∀ breaks, expr.bare.statementPieces breaks = expr.statementPieces breaks := fun breaks => by
    rw [Expr.statementPieces, Expr.pieces_bare, Expr.statementPieces]
  have laid := laid_simple simple read
  cases closed with
  | true =>
    refine ⟨0, Nat.zero_le 2, ?_⟩
    rw [same]
    exact run_closedStatement laid.plain (Expr.endsShown_of_isSimple simple read) ready old
  | false =>
    obtain ⟨indentation, blanks, trails, written⟩ := laid page ready.quiet old
    rw [trails.framed frameless, LaidWith, ← Expr.pieces_bare] at written
    refine ⟨_, Nat.min_le_right (max (blanks.count .newline) 1) 2, ?_⟩
    rw [stmt]
    exact run_bind (run_bind written rfl) (run_terminate_plain plain ready old trails.blank)

theorem run_stmts_append {front back : List Stmt} {middle later : Page}
    (first : (stmts front).run page = ((), middle)) (second : (stmts back).run middle = ((), later)) :
    (stmts (front ++ back)).run page = ((), later) := by
  induction front generalizing page with
  | nil =>
    cases first
    exact second
  | cons statement front ih =>
    rw [List.cons_append, stmts]
    rw [stmts] at first
    exact run_bind rfl (ih first)

theorem run_breaks (ready : page.Ready) (ends : EndsShown pieces) {breaks : Nat} (few : breaks ≤ 2)
    (count : Nat) : (stmts (List.replicate count .lineBreak)).run (page.weave (pieces ++ separator breaks)) =
      ((), page.weave (pieces ++ separator (min (breaks + count) 2))) := by
  induction count generalizing breaks with
  | zero =>
    rw [Nat.add_zero, Nat.min_eq_left few]
    rfl
  | succ count ih =>
    have later := ih (Nat.min_le_right (breaks + 1) 2)
    have same : min (min (breaks + 1) 2 + count) 2 = min (breaks + (count + 1)) 2 := by omega
    rw [same] at later
    rw [List.replicate_succ, stmts]
    exact run_bind (run_breakStatement_behind ready ends few) later

theorem run_programRead (ready : page.Ready) (nonempty : rows ≠ []) (settled : ∀ row ∈ rows, SettledRow row)
    (old : List Piece) : (stmts (programRead rows)).run (page.weave old) =
      ((), page.weave (old ++ programPieces rows ++ separator 0)) := by
  induction rows generalizing old with
  | nil => exact absurd rfl nonempty
  | cons row others ih =>
    obtain ⟨⟨plain, _, few⟩, othersSettled⟩ := List.forall_mem_cons.mp settled
    obtain ⟨expr, breaks⟩ := row
    have here := run_closedStatement (laid_plain plain) plain.endsShown ready old
    cases others with
    | nil =>
      rw [programRead, stmts, stmts]
      refine run_same (run_bind here rfl) ?_
      simp [programPieces, Expr.statementPieces]
    | cons next others =>
      have broken := run_breaks ready (endsShown_semicolon (old ++ expr.pieces)) (Nat.zero_le 2) breaks
      rw [Nat.zero_add, Nat.min_eq_left few] at broken
      have later := ih (List.cons_ne_nil _ _) othersSettled
        (old ++ expr.pieces ++ [mark .semicolon] ++ separator breaks)
      rw [append_statementPieces] at here
      show (stmts (.expression expr true :: (List.replicate breaks .lineBreak ++ programRead _))).run _ = _
      rw [stmts]
      refine run_same (run_bind here (run_stmts_append broken later)) ?_
      simp [programPieces, Expr.statementPieces]

theorem exists_rows_stmt {source : String} {statement : Stmt} (settings : Settings)
    (simple : statement.isSimple = true)
    (read : Expr.All (fun part => part.Graded ∧ part.Formed (· ∈ scan source)) statement.parts)
    (settled : ∀ row ∈ rows, SettledRow row) : ∃ later, (∀ row ∈ later, SettledRow row) ∧
      (stmt statement).run ((Page.blank settings).weave (rowPieces rows)) =
        ((), (Page.blank settings).weave (rowPieces later)) := by
  have ready : (Page.blank settings).Ready := ⟨rfl, rfl, rfl, rfl⟩
  unfold Stmt.isSimple at simple
  split at simple
  · rename_i closed
    rw [Bool.not_eq_true'] at simple
    subst simple
    obtain rfl | ⟨front, ⟨expr, breaks⟩, rfl⟩ := List.eq_nil_or_concat rows
    · exact ⟨[], settled, run_breakStatement_above settings⟩
    · rw [List.concat_eq_append] at settled ⊢
      obtain ⟨frontSettled, last⟩ := List.forall_mem_append.mp settled
      obtain ⟨plain, unbracketed, few⟩ := List.forall_mem_singleton.mp last
      refine ⟨front ++ [(expr, min (breaks + 1) 2)], ?_, ?_⟩
      · exact List.forall_mem_append.mpr ⟨frontSettled,
          List.forall_mem_singleton.mpr ⟨plain, unbracketed, Nat.min_le_right ..⟩⟩
      · rw [rowPieces_snoc, rowPieces_snoc, append_statementPieces, append_statementPieces]
        exact run_breakStatement_behind ready (endsShown_semicolon _) few
  · rename_i expr closed _
    rw [Bool.and_eq_true, decide_eq_true_eq] at simple
    obtain ⟨breaks, few, written⟩ := exists_row simple.1 read ready rfl (rowPieces rows)
    refine ⟨rows ++ [(expr.bare, breaks)], ?_, ?_⟩
    · refine List.forall_mem_append.mpr ⟨settled, List.forall_mem_singleton.mpr ?_⟩
      refine ⟨Expr.plain_any (Expr.plain_bare simple.1 read), ?_, few⟩
      rw [Expr.opening_bare]
      exact simple.2
    · rw [rowPieces_snoc]
      exact written
  · cases simple

theorem exists_rows_stmts {source : String} {program : List Stmt} (settings : Settings)
    (simple : program.all Stmt.isSimple = true)
    (read : Expr.All (fun part => part.Graded ∧ part.Formed (· ∈ scan source)) (Stmt.listParts program))
    (settled : ∀ row ∈ rows, SettledRow row) : ∃ later, (∀ row ∈ later, SettledRow row) ∧
      (stmts program).run ((Page.blank settings).weave (rowPieces rows)) =
        ((), (Page.blank settings).weave (rowPieces later)) := by
  induction program generalizing rows with
  | nil => exact ⟨rows, settled, rfl⟩
  | cons statement others ih =>
    rw [List.all_cons, Bool.and_eq_true] at simple
    obtain ⟨here, later⟩ := List.forall_mem_append.mp read
    obtain ⟨middle, middleSettled, first⟩ := exists_rows_stmt settings simple.1 here settled
    obtain ⟨last, lastSettled, rest⟩ := ih simple.2 later middleSettled
    exact ⟨last, lastSettled, run_bind first rest⟩

end Print

section

variable {rows : List (Expr × Nat)} {settings : Settings} {source : String}

theorem output_nothing {program : List Stmt}
    (laid : (Print.stmts program).run (Page.blank settings) = ((), Page.blank settings)) :
    (layOut settings program).output.toList =
      wovenText (List.replicate settings.newlinesAtEnd (some .lineBreak)) := by
  have broken : Piece.toFragment (some .lineBreak) = .newline := rfl
  have finished : Print.finish.run (Page.blank settings) =
      ((), (Page.blank settings).weave (List.replicate settings.newlinesAtEnd (some .lineBreak))) := by
    refine congrArg ((), ·) (congrArg (fun buffer : Buffer => { Page.blank settings with buffer := buffer }) ?_)
    simp [broken, Page.blank, Page.dropAllBlanks]
  have whole : (Print.program program).run (Page.blank settings) = _ := Print.run_bind laid finished
  rw [layOut, whole]
  exact output_weave settings _

theorem run_breaks_above (settings : Settings) (count : Nat) :
    (Print.stmts (List.replicate count .lineBreak)).run (Page.blank settings) = ((), Page.blank settings) := by
  induction count with
  | zero => rfl
  | succ count ih =>
    rw [List.replicate_succ, Print.stmts]
    exact Print.run_bind (Print.run_breakStatement_above settings) ih

theorem exists_settledRows {program : List Stmt} (parsed : parse source = .ok program)
    (simple : program.all Stmt.isSimple = true) (settings : Settings) :
    ∃ rows, (∀ row ∈ rows, SettledRow row) ∧ (layOut settings program).output.toList = wovenText
      (programPieces rows ++ List.replicate settings.newlinesAtEnd (some .lineBreak)) := by
  have graded := all_of_parse (fun bound => (Rules.grading_upTo bound).statement) parsed
  have formed := (parse_formed parsed).of_mem_parts
  obtain ⟨rows, settled, laid⟩ := @Print.exists_rows_stmts [] source program settings simple
    (fun part member => ⟨graded part member, formed part member⟩) (fun _ member => nomatch member)
  refine ⟨rows, settled, ?_⟩
  by_cases nonempty : rows = []
  · subst nonempty
    exact output_nothing laid
  · exact output_rows nonempty (fun row member => (settled row member).plain) laid

theorem format_settledRows (settled : ∀ row ∈ rows, SettledRow row) (text : source.toList = wovenText
      (programPieces rows ++ List.replicate settings.newlinesAtEnd (some .lineBreak))) :
    format settings source = .ok source := by
  have plain : ∀ row ∈ rows, Plain .assignment row.1 := fun row member => (settled row member).plain
  obtain ⟨stop, read⟩ := parseTokens_plain plain (fun row member => (settled row member).unbracketed)
    settings.newlinesAtEnd
  rw [format_of_tokens (scan_rows plain settings.newlinesAtEnd text) read, Except.ok.injEq,
    ← String.toList_inj, text]
  by_cases nonempty : rows = []
  · subst nonempty
    exact output_nothing (run_breaks_above settings settings.newlinesAtEnd)
  · have ready : (Page.blank settings).Ready := ⟨rfl, rfl, rfl, rfl⟩
    have ends := endsShown_program nonempty plain
    have laid := Print.run_stmts_append (Print.run_programRead ready nonempty settled [])
      (Print.run_breaks ready ends (Nat.zero_le 2) settings.newlinesAtEnd)
    exact output_blanks ends (isBlank_separator _) laid

/-- A source of simple statements settles with its first formatting, under any settings. So does, under the
default ones, a source of nested statements with the tokens of a standard text. -/
theorem format_settles {program : List Stmt} (parsed : parse source = .ok program) (settings : Settings)
    (fit : program.all Stmt.isSimple = true ∨ settings = {} ∧ Canonical.Styled source) :
    ∃ output, format settings source = .ok output ∧ format settings output = .ok output := by
  obtain simple | ⟨rfl, styled⟩ := fit
  · obtain ⟨rows, settled, text⟩ := exists_settledRows parsed simple settings
    exact ⟨_, format_of_parse parsed settings, format_settledRows settled text⟩
  · exact styled.exists_format parsed

end

/-- Four statements, three of them without a semicolon and one over two lines; and a loop in a conditional. -/
theorem format_settles_unclosed : (∃ program,
    parse "\n\nx = f(a,b)\n\n\n\ny += -x *\t(1+z\n)\nx++; a.b()" = .ok program ∧
      program.all Stmt.isSimple = true ∧
      ∃ output, format { useSpaces := false } "\n\nx = f(a,b)\n\n\n\ny += -x *\t(1+z\n)\nx++; a.b()" =
        .ok output ∧ format { useSpaces := false } output = .ok output) ∧
    ∃ output, format {} "if(a)\x7b\n    while ( b) \x7b\n        f(1)  ;\n    \x7d\n\x7d\n" = .ok output ∧
      format {} output = .ok output ∧
      output = "if (a) \x7b\n    while (b) \x7b\n        f(1);\n    \x7d\n\x7d\n" := by
  have read : ∃ program, parse "\n\nx = f(a,b)\n\n\n\ny += -x *\t(1+z\n)\nx++; a.b()" = .ok program ∧
      program.all Stmt.isSimple = true := exists_ok (by decide +kernel)
  have nested : ∃ program, parse "if(a)\x7b\n    while ( b) \x7b\n        f(1)  ;\n    \x7d\n\x7d\n" =
      .ok program ∧
      (layOut {} program).output = "if (a) \x7b\n    while (b) \x7b\n        f(1);\n    \x7d\n\x7d\n" :=
    exists_ok (by decide +kernel)
  obtain ⟨program, parsed, simple⟩ := read
  obtain ⟨nestedProgram, parsedNested, laid⟩ := nested
  refine ⟨⟨program, parsed, simple, format_settles parsed { useSpaces := false } (.inl simple)⟩, ?_⟩
  obtain ⟨output, first, again⟩ := format_settles parsedNested {} (.inr ⟨rfl, Canonical.styled_guardedLoop⟩)
  obtain rfl := Except.ok.inj ((format_of_parse parsedNested {}).symm.trans first)
  exact ⟨_, first, again, laid⟩

end GmlLayout
