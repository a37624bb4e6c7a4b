import GmlLayout.Proofs.Grammar.PlainProgram
import GmlLayout.Proofs.Layout.PlainLayout
import GmlLayout.Proofs.Layout.Spacing

/-!
What is laid out for a program of plain expressions is parsed back to them, whatever the settings: every
expression becomes a statement that is closed by a semicolon, and only line breaks come between them.
-/

namespace GmlLayout

open Piece (mark)

section

variable {rows : List (Expr × Nat)} {page : Page} {settings : Settings}

/-- The pieces of a program, with what stands behind its last semicolon. -/
def rowPieces (rows : List (Expr × Nat)) : List Piece :=
  rows.flatMap fun row => row.1.statementPieces row.2

theorem exists_separator (nonempty : rows ≠ []) :
    ∃ breaks, rowPieces rows = programPieces rows ++ separator breaks := by
  induction rows with
  | nil => exact absurd rfl nonempty
  | cons row others ih =>
    obtain ⟨expr, breaks⟩ := row
    cases others with
    | nil => exact ⟨breaks, by simp [rowPieces, programPieces, Expr.statementPieces]⟩
    | cons next others =>
      obtain ⟨later, shape⟩ := ih (List.cons_ne_nil _ _)
      refine ⟨later, ?_⟩
      rw [rowPieces, List.flatMap_cons]
      exact (congrArg (expr.statementPieces breaks ++ ·) shape).trans (List.append_assoc ..).symm

theorem output_weave (settings : Settings) (pieces : List Piece) :
    ((Page.blank settings).weave pieces).output.toList = wovenText pieces := by
  have same : ∀ piece : Piece, piece.toFragment.toText.toList = piece.toText := by
    intro piece
    cases piece with
    | none => rfl
    | some token => exact congrArg String.toList (Fragment.toText_ofText token.lexeme)
  simp [Page.output, Buffer.toText, Page.weave, Page.blank, wovenText, List.flatMap, Function.comp_def,
    same]

def Piece.IsBlank (piece : Piece) : Prop :=
  piece = none ∨ piece = some .lineBreak

theorem isBlank_separator (breaks : Nat) : ∀ piece ∈ separator breaks, piece.IsBlank := by
  intro piece member
  cases breaks with
  | zero => exact .inl (List.mem_singleton.mp member)
  | succ breaks => exact .inr (List.eq_of_mem_replicate member)

theorem dropAllBlanks_weave {pieces blanks : List Piece} (ends : EndsShown pieces)
    (blank : ∀ piece ∈ blanks, piece.IsBlank) :
    (page.weave (pieces ++ blanks)).dropAllBlanks = page.weave pieces := by
  obtain ⟨before, last, rfl, shown⟩ := ends
  have isBlank : ∀ fragment ∈ (blanks.map Piece.toFragment).reverse, fragment.isBlank = true := by
    intro fragment member
    obtain ⟨piece, found, rfl⟩ := List.mem_map.mp (List.mem_reverse.mp member)
    obtain rfl | rfl := blank piece found <;> decide
  have buffer : (page.weave (before ++ [some last] ++ blanks)).buffer =
      (blanks.map Piece.toFragment).reverse ++ (page.weave (before ++ [some last])).buffer := by
    simp [Page.weave]
  refine Page.with_buffer_weave ?_
  rw [buffer, List.dropWhile_append_of_pos isBlank, Page.weave_buffer shown]
  rfl

theorem Print.run_finish {pieces blanks : List Piece} (ends : EndsShown pieces)
    (blank : ∀ piece ∈ blanks, piece.IsBlank) :
    finish.run (page.weave (pieces ++ blanks)) = ((), page.weave
      (pieces ++ List.replicate page.settings.newlinesAtEnd (some .lineBreak))) := by
  have broken : Piece.toFragment (some .lineBreak) = .newline := rfl
  refine congrArg ((), ·) ?_
  beta_reduce
  rw [dropAllBlanks_weave ends blank]
  exact Page.with_buffer_weave (by simp [Page.weave, broken])

theorem endsShown_program (nonempty : rows ≠ []) (plain : ∀ row ∈ rows, Plain .assignment row.1) :
    EndsShown (programPieces rows) := by
  obtain ⟨first, weave, _⟩ := exists_weave_program nonempty plain
  obtain ⟨before, ends⟩ := weave.exists_append
  exact ⟨before, _, ends, Print.shown_mark (by decide)⟩

/-- The text of a program: what is laid out for its statements, and the line breaks at its end. -/
theorem output_blanks {program : List Stmt} {pieces blanks : List Piece} (ends : EndsShown pieces)
    (blank : ∀ piece ∈ blanks, piece.IsBlank)
    (laid : (Print.stmts program).run (Page.blank settings) =
      ((), (Page.blank settings).weave (pieces ++ blanks))) :
    (layOut settings program).output.toList = wovenText
      (pieces ++ List.replicate settings.newlinesAtEnd (some .lineBreak)) := by
  have whole : (Print.program program).run (Page.blank settings) = _ :=
    Print.run_bind laid (Print.run_finish ends blank)
  rw [layOut, whole]
  exact output_weave settings _

theorem output_rows {program : List Stmt} (nonempty : rows ≠ []) (plain : ∀ row ∈ rows, Plain .assignment row.1)
    (laid : (Print.stmts program).run (Page.blank settings) =
      ((), (Page.blank settings).weave (rowPieces rows))) :
    (layOut settings program).output.toList = wovenText
      (programPieces rows ++ List.replicate settings.newlinesAtEnd (some .lineBreak)) := by
  obtain ⟨breaks, shape⟩ := exists_separator nonempty
  rw [shape] at laid
  exact output_blanks (endsShown_program nonempty plain) (isBlank_separator breaks) laid

theorem scan_rows (plain : ∀ row ∈ rows, Plain .assignment row.1) (breaks : Nat) {source : String}
    (text : source.toList = wovenText (programPieces rows ++ List.replicate breaks (some .lineBreak))) :
    (scan source).map Token.unplaced =
      (wovenTokens (programPieces rows) ++ List.replicate breaks Token.lineBreak).map Token.unplaced := by
  have tokens : wovenTokens (programPieces rows ++ List.replicate breaks (some .lineBreak)) =
      wovenTokens (programPieces rows) ++ List.replicate breaks .lineBreak := by
    simp [wovenTokens]
  rw [← tokens]
  by_cases nonempty : rows = []
  · subst nonempty
    cases breaks with
    | zero => exact scan_woven .nil (fun _ member => absurd member List.not_mem_nil) text
    | succ breaks =>
      have weave := Weave.lineBreaks breaks
      exact scan_woven weave.chain weave.spelled text
  · obtain ⟨first, weave, _⟩ := exists_weave_program nonempty plain
    obtain ⟨last, whole⟩ := weave.exists_lineBreaks Token.semicolon_fits_lineBreak breaks
    exact scan_woven whole.chain whole.spelled text

end

section

variable {statements : List (Expr × Bool)} {page : Page}

/-- The expressions as statements; the flags tell which of them have a semicolon. -/
def expressionStatements (statements : List (Expr × Bool)) : List Stmt :=
  statements.map fun statement => .expression statement.1 statement.2

/-- The rows that the expressions are written in: one without a semicolon ends its line. -/
def expressionRows (statements : List (Expr × Bool)) : List (Expr × Nat) :=
  statements.map fun statement => (statement.1, if statement.2 then 0 else 1)

theorem forall_expressionRows (each : Expr → Prop) (all : ∀ statement ∈ statements, each statement.1) :
    ∀ row ∈ expressionRows statements, each row.1 := by
  intro row member
  obtain ⟨statement, found, rfl⟩ := List.mem_map.mp member
  exact all statement found

/-- A line break that is a statement starts a new line, and uses up the exemption that it grants. -/
theorem Print.run_breakStatement (running : page.lineEnded = false) :
    (stmt .lineBreak).run page = ((), page.newline .stay) := by
  have started : page.exempt.newline .stay = (page.newline .stay).exempt := by
    unfold Page.newline
    rw [apply_ite Page.exempt]
    rfl
  have kept : (page.newline .stay).lineEnded = false := by
    unfold Page.newline
    split <;> exact running
  have closed : (closeExpression []).run (page.newline .stay).exempt = ((), (page.newline .stay).exempt) := by
    refine congrArg ((), ·) ?_
    show { (page.newline .stay).exempt with lineEnded := false } = _
    rw [← kept]
    rfl
  have written : (if !page.lineEnded then do newline .stay; closeExpression [] else closeExpression []).run
      page.exempt = ((), (page.newline .stay).exempt) := by
    rw [running]
    exact run_bind (congrArg ((), ·) started) closed
  have taken : takeExemption.run (page.newline .stay).exempt = (true, page.newline .stay) := rfl
  rw [Stmt.lineBreak, stmt, Print.expr]
  exact run_bind (run_bind (run_bind rfl (run_bind rfl written)) rfl) (run_bind taken rfl)

theorem Print.laid_statements (ready : page.Ready)
    (plain : ∀ statement ∈ statements, Plain .assignment statement.1) (old : List Piece) :
    (stmts (expressionStatements statements)).run (page.weave old) =
      ((), page.weave (old ++ rowPieces (expressionRows statements))) := by
  induction statements generalizing old with
  | nil =>
    rw [expressionRows, List.map_nil, rowPieces, List.flatMap_nil, List.append_nil]
    rfl
  | cons statement others ih =>
    obtain ⟨expr, closed⟩ := statement
    have here := laid_statement (plain (expr, closed) List.mem_cons_self) closed ready old
    have later := ih (fun statement member => plain statement (List.mem_cons_of_mem _ member))
      (old ++ expr.statementPieces (if closed then 0 else 1))
    rw [expressionRows, List.map_cons, rowPieces, List.flatMap_cons, ← List.append_assoc]
    exact run_bind here later

def Stmt.isLineBreak : Stmt → Bool
  | .expression .newline _ => true
  | _ => false

theorem Plain.isLineBreak_unplaced {expr : Expr} (plain : Plain .assignment expr) (closed : Bool) :
    (Stmt.expression expr closed).unplaced.isLineBreak = false := by
  obtain ⟨first, last, woven⟩ := plain.woven
  cases expr with
  | newline => cases woven.weave.head
  | _ => rfl

theorem filter_programRead {rows : List (Expr × Nat)} (plain : ∀ row ∈ rows, Plain .assignment row.1)
    (breaks : Nat) :
    ((programRead rows ++ List.replicate breaks Stmt.lineBreak).map Stmt.unplaced).filter
        (fun stmt => !stmt.isLineBreak) =
      rows.map fun row => (Stmt.expression row.1 true).unplaced := by
  have dropped : Stmt.lineBreak.unplaced.isLineBreak = true := rfl
  induction rows with
  | nil => simp [programRead, dropped]
  | cons row others ih =>
    obtain ⟨expr, between⟩ := row
    have kept := (plain (expr, between) List.mem_cons_self).isLineBreak_unplaced true
    have later := ih fun row member => plain row (List.mem_cons_of_mem _ member)
    cases others with
    | nil => simp [programRead, kept, dropped]
    | cons next others =>
      rw [List.map_cons, ← later]
      simp [programRead, kept, dropped]

/-- Programs of plain expressions are parsed back from what is laid out for them. -/
theorem parse_layOut (nonempty : statements ≠ [])
    (plain : ∀ statement ∈ statements, Plain .assignment statement.1)
    (unbracketed : ∀ statement ∈ statements, statement.1.opening ≠ some (.symbol .leftBracket))
    (settings : Settings) :
    ∃ program, parse (layOut settings (expressionStatements statements)).output = .ok program ∧
      (program.map Stmt.unplaced).filter (fun stmt => !stmt.isLineBreak) =
        statements.map fun statement => .expression statement.1.unplaced true := by
  have ready : (Page.blank settings).Ready := ⟨rfl, rfl, rfl, rfl⟩
  have rowsNonempty : expressionRows statements ≠ [] := by simpa [expressionRows] using nonempty
  have rowsPlain := forall_expressionRows (Plain .assignment) plain
  have rowsUnbracketed := forall_expressionRows (·.opening ≠ some (.symbol .leftBracket)) unbracketed
  have laid := Print.laid_statements ready plain []
  rw [List.nil_append] at laid
  have output := @output_rows _ settings _ rowsNonempty rowsPlain laid
  obtain ⟨stop, read⟩ := parseTokens_plain rowsPlain rowsUnbracketed settings.newlinesAtEnd
  obtain ⟨program, parsed, same⟩ := parse_of_tokens (scan_rows rowsPlain _ output) read
  rw [Stmt.mapList_eq_map, Stmt.mapList_eq_map] at same
  refine ⟨program, parsed, ?_⟩
  have found := filter_programRead rowsPlain settings.newlinesAtEnd
  rw [expressionRows, List.map_map] at found
  exact (congrArg (List.filter _) same).trans found

end

theorem isName_x : Token.IsName ⟨.identifier, .text "x", 0, 0⟩ :=
  ⟨rfl, "x", [], rfl, @Cut.word 'x' [] [] (by decide) (fun _ member => nomatch member) .nil⟩

theorem isLiteral_one : Token.IsLiteral ⟨.number, .text "1", 0, 4⟩ :=
  ⟨⟨"1", [], rfl, @Cut.whole '1' [] [] (by decide) (fun _ member => nomatch member) .nil
    fun _ _ => .nil⟩, .inl rfl⟩

def assignmentAndOpposite : List (Expr × Bool) :=
  [(.assign (.identifier ⟨.identifier, .text "x", 0, 0⟩ []) ⟨.symbol .equal, .none, 0, 2⟩ []
      (.literal ⟨.number, .text "1", 0, 4⟩ []), false),
   (.unary ⟨.symbol .minus, .none, 1, 0⟩ [] (.identifier ⟨.identifier, .text "x", 0, 0⟩ []), true)]

theorem plain_assignmentAndOpposite :
    ∀ statement ∈ assignmentAndOpposite, Plain .assignment statement.1 := by
  have name := (Plain.identifier isName_x).unary_of_owner
  have one := (Plain.literal isLiteral_one).unary_of_owner
  intro statement member
  simp only [assignmentAndOpposite, List.mem_cons, List.not_mem_nil, or_false] at member
  obtain rfl | rfl := member
  · exact .assign name.ternary_of_unary ⟨rfl, rfl⟩ (.value one.ternary_of_unary)
  · have minus : Token.IsOperator ⟨.symbol .minus, .none, 1, 0⟩ Kind.isUnary := ⟨rfl, rfl⟩
    exact .value (Plain.unary minus name fun nested => nomatch nested).ternary_of_unary

theorem unbracketed_assignmentAndOpposite :
    ∀ statement ∈ assignmentAndOpposite, statement.1.opening ≠ some (.symbol .leftBracket) := by
  decide

theorem parse_layOut_assignmentAndOpposite :
    assignmentAndOpposite ≠ [] ∧ (∀ statement ∈ assignmentAndOpposite, Plain .assignment statement.1) ∧
    (∀ statement ∈ assignmentAndOpposite, statement.1.opening ≠ some (.symbol .leftBracket)) ∧
    ∃ program, parse (layOut {} (expressionStatements assignmentAndOpposite)).output = .ok program ∧
      (program.map Stmt.unplaced).filter (fun stmt => !stmt.isLineBreak) =
        assignmentAndOpposite.map fun statement => .expression statement.1.unplaced true :=
  ⟨List.cons_ne_nil _ _, plain_assignmentAndOpposite, unbracketed_assignmentAndOpposite,
    parse_layOut (List.cons_ne_nil _ _) plain_assignmentAndOpposite unbracketed_assignmentAndOpposite {}⟩

end GmlLayout
