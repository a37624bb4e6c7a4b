import GmlLayout.Proofs.Grammar.CanonicalParse
import GmlLayout.Proofs.Layout.RoundTrip

/-!
Canonical programs are laid out as their pieces, row by row. On a sheet nothing but the depth, the
exemptions and the last line break counts. Behind a statement and the line break that belongs to it a
row has been started, whether the statement stands in a block or not; what the statement did with the
exemptions is all that the next one can tell.
-/

namespace GmlLayout

open Piece (mark gap)

namespace Buffer

theorem exists_row (count : Nat) (earlier : Buffer) : ∃ last before,
    List.replicate count .space ++ .newline :: earlier = last :: before := by
  cases count <;> exact ⟨_, _, rfl⟩

theorem dropBlanks_row (count : Nat) (content : String) (earlier : Buffer) :
    dropBlanks (List.replicate count .space ++ .newline :: .text content :: earlier) =
      (1, .text content :: earlier) := by
  have blank : ∀ fragment ∈ List.replicate count Fragment.space ++ [.newline], fragment.isBlank = true := by
    simp [or_imp, forall_and, Fragment.isBlank]
  have dropped := dropBlanks_blanks blank content earlier
  simpa [List.count_replicate] using dropped

theorem onBlankLine_row (count : Nat) (content : String) (earlier : Buffer) :
    onBlankLine (List.replicate count .space ++ .newline :: .text content :: earlier) = true := by
  induction count with
  | zero => rfl
  | succ count ih =>
    obtain ⟨last, before, shape⟩ := exists_row count (.text content :: earlier)
    rw [shape] at ih
    rw [List.replicate_succ, List.cons_append, shape]
    exact ih

end Buffer

namespace Page

/-- A page with the default settings, before anything is written on it. `asked` tells that the next block
is to leave the line open behind it. -/
def sheet (depth owed : Nat) (ended asked : Bool) : Page where
  settings := {}
  indentation := depth
  lineEnded := ended
  blockRequests := if asked then [{ noNewlineAfter := true }] else []
  exemptions := owed

variable {depth later owed : Nat} {ended asked : Bool} {pieces : List Piece} {move : Move} {page : Page}

theorem weave_row_buffer {before : List Piece} {last : Token} (shown : last.Shown) (page : Page)
    (depth : Nat) : (page.weave (before ++ [some last] ++ rowStart depth)).buffer =
      List.replicate (4 * depth) .space ++ .newline :: .text last.lexeme :: (page.weave before).buffer := by
  have broken : Piece.toFragment (some (.rowBreak depth)) = .newline := rfl
  have blank : Piece.toFragment none = .space := rfl
  rw [← weave_buffer shown]
  simp [weave, rowStart, broken, blank]

theorem dropBlanks_rowStart (ends : EndsShown pieces) (depth : Nat) :
    (page.weave (pieces ++ rowStart depth)).dropBlanks = (1, page.weave pieces) := by
  obtain ⟨before, last, rfl, shown⟩ := ends
  unfold dropBlanks
  rw [weave_row_buffer shown, Buffer.dropBlanks_row, ← weave_buffer shown]
  exact congrArg (1, ·) (with_buffer_weave rfl)

theorem onBlankLine_rowStart (ends : EndsShown pieces) (depth : Nat) :
    (page.weave (pieces ++ rowStart depth)).onBlankLine = true := by
  obtain ⟨before, last, rfl, shown⟩ := ends
  unfold onBlankLine
  rw [weave_row_buffer shown, Buffer.onBlankLine_row]

theorem onBlankLine_shown (ends : EndsShown pieces) (spaced : Bool) :
    (page.weave (pieces ++ gap spaced)).onBlankLine = false := by
  obtain ⟨before, last, rfl, shown⟩ := ends
  unfold onBlankLine
  rw [weave_gap_buffer shown]
  cases spaced with
  | false => exact onBlankLine_text _ _
  | true => exact onBlankLine_text _ _

theorem newline_sheet (ends : EndsShown pieces) (spaced : Bool)
    (moves : (sheet depth owed ended asked).indentationAfter move = later) :
    ((sheet depth owed ended asked).weave (pieces ++ gap spaced)).newline move =
      (sheet later owed ended asked).weave (pieces ++ rowStart later) := by
  have broken : Piece.toFragment (some (.rowBreak later)) = .newline := rfl
  have blank : Piece.toFragment none = .space := rfl
  have moved : (((sheet depth owed ended asked).weave pieces).push .newline).setIndentation move =
      ((sheet later owed ended asked).weave pieces).push .newline := by
    unfold setIndentation
    have same : (((sheet depth owed ended asked).weave pieces).push .newline).indentationAfter move =
        later := moves
    rw [same]
    rfl
  have margin : (((sheet later owed ended asked).weave pieces).push .newline).margin =
      List.replicate (4 * later) .space := by
    show (List.replicate later (List.replicate 4 Fragment.space)).flatten = _
    rw [List.flatten_replicate_replicate, Nat.mul_comm]
  rw [Print.newline_shown _ ends, indent, moved, writeMargin, margin]
  refine @with_buffer_weave (sheet later owed ended asked) pieces _ _ ?_
  simp [push, weave, rowStart, broken, blank]

theorem newline_stay (ends : EndsShown pieces) (spaced : Bool) :
    ((sheet depth owed ended asked).weave (pieces ++ gap spaced)).newline .stay =
      (sheet depth owed ended asked).weave (pieces ++ rowStart depth) :=
  newline_sheet ends spaced rfl

theorem newline_stay_text (ends : EndsShown pieces) :
    ((sheet depth owed ended asked).weave pieces).newline .stay =
      (sheet depth owed ended asked).weave (pieces ++ rowStart depth) := by
  simpa using @newline_stay depth owed ended asked _ ends false

end Page

namespace Print

open Page

variable {depth later owed : Nat} {ended asked : Bool} {old pieces : List Piece} {page : Page}

theorem run_takeExemption_sheet (pieces : List Piece) :
    takeExemption.run ((sheet depth owed ended asked).weave pieces) =
      (decide (0 < owed), (sheet depth (owed - 1) ended asked).weave pieces) :=
  rfl

theorem run_terminate_closed (pieces : List Piece) :
    (terminate true).run ((sheet depth owed ended asked).weave pieces) =
      ((), (sheet depth (owed - 1) ended asked).weave pieces) :=
  run_bind (run_takeExemption_sheet pieces) rfl

def braceEnd (depth : Nat) (leftOpen : Bool) : List Piece :=
  mark .rightBrace :: if leftOpen then [] else rowStart depth

theorem endsShown_brace (old : List Piece) : EndsShown (old ++ [mark .rightBrace]) :=
  .snoc (shown_mark (by decide)) old

theorem run_terminate_brace (old : List Piece) (leftOpen : Bool) :
    (terminate false).run ((sheet depth owed ended asked).weave (old ++ braceEnd depth leftOpen)) =
      ((), (sheet depth (owed - 1) ended asked).weave (old ++ braceEnd depth leftOpen)) := by
  refine run_bind (run_takeExemption_sheet _) ?_
  cases owed with
  | succ owed => rfl
  | zero =>
    have ends := endsShown_brace old
    have brace : Token.Shown (.ofKind (.symbol .rightBrace)) := shown_mark (by decide)
    let emptied : Page := (sheet depth 0 ended asked).weave (old ++ [mark .rightBrace])
    have buffer : emptied.buffer = .text "\x7d" :: ((sheet depth 0 ended asked).weave old).buffer :=
      weave_buffer brace _
    have dropped : (modifyGet Page.dropBlanks : Print Nat).run
        ((sheet depth 0 ended asked).weave (old ++ braceEnd depth leftOpen)) =
          (if leftOpen then 0 else 1, emptied) := by
      show Page.dropBlanks _ = _
      rw [braceEnd, List.append_cons]
      cases leftOpen with
      | true => exact dropBlanks_weave ends false
      | false => exact dropBlanks_rowStart ends depth
    have begun : emptied.buffer.isEmpty = false := begun_weave ends _
    have code : emptied.buffer.code.head? = some (.text "\x7d") := by rw [buffer]; rfl
    have restored : emptied.newlines (if leftOpen then 0 else 1) =
        (sheet depth 0 ended asked).weave (old ++ braceEnd depth leftOpen) := by
      rw [braceEnd, List.append_cons]
      cases leftOpen with
      | true => exact congrArg (sheet depth 0 ended asked).weave (List.append_nil _).symm
      | false => exact newline_stay_text ends
    refine run_bind dropped (run_bind rfl ?_)
    simp only [begun, code, Bool.not_false, ↓reduceIte]
    exact congrArg ((), ·) restored

theorem run_closed {expr : Expr} (plain : Plain .assignment expr) (old : List Piece) :
    (stmt (.expression expr true)).run ((sheet depth owed ended false).weave old) =
      ((), (sheet depth (owed - 1) false false).weave
        (old ++ (expr.pieces ++ [mark .semicolon]) ++ gap true)) := by
  have semicolon : (semicolonIf true).run
      ((sheet depth owed false false).weave (old ++ expr.pieces ++ gap expr.spaced)) =
        ((), (sheet depth owed false false).weave (old ++ expr.pieces ++ mark .semicolon :: gap true)) :=
    congrArg ((), ·) (writeSemicolon_weave _ (plain.endsShown.append old) expr.spaced)
  rw [stmt]
  refine run_same (run_bind (run_bind (run_plain plain rfl old) semicolon) (run_terminate_closed _)) ?_
  simp

theorem run_lineBreak (ends : EndsShown pieces) (spaced : Bool) :
    (stmt .lineBreak).run ((sheet depth owed false false).weave (pieces ++ gap spaced)) =
      ((), (sheet depth owed false false).weave (pieces ++ rowStart depth)) := by
  have running : ((sheet depth owed false false).weave (pieces ++ gap spaced)).lineEnded = false := rfl
  rw [run_breakStatement running, newline_stay ends spaced]

theorem run_lineBreak_ended (pieces : List Piece) :
    (stmt .lineBreak).run ((sheet depth owed true false).weave pieces) =
      ((), (sheet depth owed false false).weave pieces) := by
  rw [Stmt.lineBreak, stmt, Print.expr]
  rfl

end Print

namespace Canonical

open Page Print

variable {depth owed : Nat} {ended asked : Bool} {old pieces : List Piece}

theorem run_declaration (name : Name) (value : Expression) (old : List Piece) :
    (stmt ((Statement.declaration name value).tree depth 0)).run ((sheet depth owed ended false).weave old) =
      ((), (sheet depth (owed - 1) (decide (owed = 0)) false).weave
        (old ++ (Statement.declaration name value).pieces 1 depth owed ++
          if owed = 0 then rowStart depth else [])) := by
  have plain := plain_declared name value
  let front := old ++ some (.ofKind (.keyword .varWord)) :: gap true
  have ends : EndsShown (front ++ (declared name value).pieces) := plain.endsShown.append front
  have listed : (variableList false [⟨⟨declared name value, none, []⟩, []⟩] false).run
      ((sheet depth owed ended false).weave front) =
        ((false, decide (0 < owed)), (sheet depth owed false false).weave (front ++
          (declared name value).pieces ++ if owed = 0 then mark .semicolon :: gap true else [])) := by
    refine run_bind rfl (run_bind (run_openFrame _ _) (run_bind (run_plain plain rfl _) ?_))
    refine run_bind (run_dropSpace _ ends _) (run_bind (run_closeFrame (sheet depth owed false false) _) ?_)
    cases owed with
    | zero =>
      have placed : (modify Page.placeSemicolon : Print Unit).run ((sheet depth 0 false false).weave
          (front ++ (declared name value).pieces)) = ((), (sheet depth 0 false false).weave
            (front ++ (declared name value).pieces ++ mark .semicolon :: gap true)) :=
        congrArg ((), ·) (placeSemicolon_plain plain _ front)
      exact run_bind rfl (run_bind placed rfl)
    | succ owed =>
      rw [if_neg (Nat.succ_ne_zero owed), List.append_nil]
      rfl
  have written : (declaration (.ofKind (.keyword .varWord)) [] ⟨[⟨⟨declared name value, none, []⟩, []⟩], false⟩
      true).run ((sheet depth owed ended false).weave old) =
        ((), (sheet depth owed (decide (owed = 0)) false).weave
          (old ++ (Statement.declaration name value).pieces 1 depth owed ++
            if owed = 0 then rowStart depth else [])) := by
    refine run_bind (run_writeToken _ old _ true) (run_bind rfl (run_bind listed ?_))
    cases owed with
    | zero =>
      have semicolonEnds : EndsShown (front ++ (declared name value).pieces ++ [mark .semicolon]) :=
        .snoc (shown_mark (by decide)) _
      have onLine := @onBlankLine_shown _ (sheet depth 0 false false) semicolonEnds true
      have row : (newline .stay).run ((sheet depth 0 false false).weave
          (front ++ (declared name value).pieces ++ [mark .semicolon] ++ gap true)) =
            ((), (sheet depth 0 false false).weave
              (front ++ (declared name value).pieces ++ [mark .semicolon] ++ rowStart depth)) :=
        congrArg ((), ·) (newline_stay semicolonEnds true)
      rw [if_pos rfl, List.append_cons]
      refine run_bind rfl ?_
      simp only [onLine]
      refine run_same (run_bind row rfl) ?_
      simp [front, Statement.pieces]
    | succ owed =>
      refine @run_same _ (sheet depth (owed + 1) false false) _ _ _ _ _ rfl ?_
      simp [front, Statement.pieces]
  rw [Statement.tree, stmt]
  exact run_bind written (run_terminate_closed _)

theorem Body.trees_forms (body : Body) (depth next : Nat) :
    (body.isLone = true ∧ ∃ choice : Conditional, body.trees depth next = [choice.tree depth next]) ∨
    body.isLone = false ∧ ∃ first second others, body.trees depth next = first :: second :: others := by
  have second : ∀ body : Body, ∃ first others, body.trees depth next = first :: others := by
    intro body
    cases body <;> exact ⟨_, _, rfl⟩
  cases body with
  | last statement =>
    cases takes : statement.takesBreak with
    | true =>
      cases statement with
      | conditional choice => exact .inl ⟨takes, choice, by simp [Body.trees, Statement.tree, takes]⟩
      | _ => cases takes
    | false => exact .inr ⟨takes, statement.tree depth next, .lineBreak, [], by simp [Body.trees, takes]⟩
  | cons statement others =>
    obtain ⟨first, more, shape⟩ := second others
    refine .inr ⟨rfl, statement.tree depth depth, ?_⟩
    rw [Body.trees, shape]
    cases statement.takesBreak <;> exact ⟨_, _, rfl⟩

theorem Conditional.isExpression_tree (choice : Conditional) (depth next : Nat) :
    (choice.tree depth next).isExpression = false := by
  cases choice <;> rfl

def blockRequest (asked : Bool) : BlockRequest :=
  if asked then { noNewlineAfter := true } else {}

theorem run_openBlock (body : Body) (ends : EndsShown pieces) (spaced : Bool) :
    (openBlock [.rowBreak (depth + 1)] (body.trees (depth + 1) depth)).run
      ((sheet depth owed ended asked).weave (pieces ++ gap spaced)) = ((blockRequest asked, true),
        (sheet (depth + 1) (owed + if body.isLone then 1 else 0) ended false).weave
          (pieces ++ none :: mark .leftBrace :: rowStart (depth + 1))) := by
  have taken : (modifyGet Page.takeBlockRequest : Print BlockRequest).run
      ((sheet depth owed ended asked).weave (pieces ++ [none])) =
        (blockRequest asked, (sheet depth owed ended false).weave (pieces ++ [none])) := by
    cases asked <;> rfl
  have braceEnds : EndsShown (pieces ++ [none] ++ [mark .leftBrace]) := .snoc (shown_mark (by decide)) _
  have row : (newline .right).run ((sheet depth owed ended false).weave
      (pieces ++ [none] ++ mark .leftBrace :: gap false)) = ((), (sheet (depth + 1) owed ended false).weave
        (pieces ++ [none] ++ [mark .leftBrace] ++ rowStart (depth + 1))) := by
    rw [List.append_cons]
    exact congrArg ((), ·) (newline_sheet braceEnds false rfl)
  have whole : pieces ++ [none] ++ [mark .leftBrace] ++ rowStart (depth + 1) =
      pieces ++ none :: mark .leftBrace :: rowStart (depth + 1) := by simp
  rw [whole] at row
  unfold openBlock
  refine run_bind rfl ?_
  rw [onBlankLine_shown ends]
  refine run_bind (run_ensureSpace _ ends spaced) (run_bind taken (run_bind (run_mark _ _ .leftBrace false) ?_))
  refine @run_bind _ _ _ _ _ false _ _ _ rfl ?_
  obtain ⟨lone, choice, shape⟩ | ⟨spread, first, second, others, shape⟩ := body.trees_forms (depth + 1) depth
  · simp only [shape, choice.isExpression_tree, lone]
    cases asked <;> exact run_bind row rfl
  · simp only [shape, spread]
    exact run_bind row rfl

theorem run_closeBlock (ends : EndsShown pieces) :
    (closeBlock (blockRequest asked) true false).run
      ((sheet (depth + 1) owed ended false).weave (pieces ++ rowStart (depth + 1))) =
        ((), (sheet depth owed true false).weave (pieces ++ rowStart depth ++ braceEnd depth asked)) := by
  have dropped : dropBlanks.run ((sheet (depth + 1) owed ended false).weave (pieces ++ rowStart (depth + 1))) =
      ((), (sheet (depth + 1) owed ended false).weave pieces) :=
    congrArg (fun dropped : Nat × Page => ((), dropped.2)) (dropBlanks_rowStart ends (depth + 1))
  have row : (newline .left).run ((sheet (depth + 1) owed ended false).weave (pieces ++ gap false)) =
      ((), (sheet depth owed ended false).weave (pieces ++ rowStart depth)) := by
    refine congrArg ((), ·) (newline_sheet ends false ?_)
    show max (((depth + 1 : Nat) : Int) - 1) 0 = depth
    omega
  have braced := endsShown_brace (pieces ++ rowStart depth)
  rw [Piece.gap_false, List.append_nil] at row
  refine run_bind dropped (run_bind row (run_bind (run_mark _ _ .rightBrace false) (run_bind rfl ?_)))
  cases asked with
  | true => rfl
  | false =>
    have written : ((sheet depth owed ended false).weave
        (pieces ++ rowStart depth ++ [mark .rightBrace])).ensureNewline .stay =
          (sheet depth owed ended false).weave (pieces ++ rowStart depth ++ braceEnd depth false) := by
      have text : ((sheet depth owed ended false).weave
          (pieces ++ rowStart depth ++ [mark .rightBrace])).last? = some (.text "\x7d") :=
        congrArg List.head? (weave_buffer (shown_mark (show Symbol.rightBrace ≠ .hash by decide)) _)
      rw [ensureNewline, text, if_neg nofun, newline_stay_text braced]
      exact congrArg _ (List.append_assoc ..)
    exact congrArg (fun page : Page => ((), page.setLineEnded true)) written

def EndsBraced (pieces : List Piece) : Prop :=
  ∃ before, pieces = before ++ [mark .rightBrace]

theorem EndsBraced.append (braced : EndsBraced pieces) (old : List Piece) : EndsBraced (old ++ pieces) := by
  obtain ⟨before, rfl⟩ := braced
  exact ⟨old ++ before, (List.append_assoc ..).symm⟩

theorem EndsBraced.shown (braced : EndsBraced pieces) : EndsShown pieces := by
  obtain ⟨before, rfl⟩ := braced
  exact endsShown_brace before

theorem endsBraced_block (depth : Nat) (inside : List Piece) : EndsBraced (blockPieces depth inside) :=
  ⟨_, rfl⟩

theorem endsBraced_headed (word : Keyword) (condition : Condition) (depth : Nat) (inside : List Piece) :
    EndsBraced (headed word condition (blockPieces depth inside)) :=
  ⟨some (.ofKind (.keyword word)) :: none :: condition.tree.pieces ++
    none :: mark .leftBrace :: rowStart (depth + 1) ++ inside ++ rowStart depth, by simp [headed, blockPieces]⟩

theorem Conditional.endsBraced (granted : Nat) : ∀ (choice : Conditional) (depth owed : Nat),
    EndsBraced (choice.pieces granted depth owed)
  | .plain _ _, _, _ => endsBraced_headed ..
  | .withElse _ _ _, _, _ => (endsBraced_block _ _).append _
  | .withElseIf _ _ other, depth, _ => (other.endsBraced granted depth _).append _

theorem run_terminate_row (braced : EndsBraced pieces) :
    (terminate false).run ((sheet depth owed ended asked).weave (pieces ++ rowStart depth)) =
      ((), (sheet depth (owed - 1) ended asked).weave (pieces ++ rowStart depth)) := by
  obtain ⟨before, rfl⟩ := braced
  rw [← List.append_cons]
  exact run_terminate_brace before false

theorem Statement.endsShown (granted : Nat) (statement : Statement) (depth owed : Nat) :
    EndsShown (statement.pieces granted depth owed) := by
  cases statement with
  | expression value => exact .snoc (shown_mark (by decide)) _
  | declaration name value =>
    rw [Statement.pieces]
    split
    · exact .snoc (shown_mark (by decide)) _
    · rw [List.append_nil]
      exact (plain_declared name value).endsShown.append [_, _]
  | conditional choice => exact (choice.endsBraced granted depth owed).shown
  | loop word condition body => exact (endsBraced_headed ..).shown

theorem Body.endsShown (granted : Nat) : ∀ (body : Body) (depth owed : Nat),
    EndsShown (body.pieces granted depth owed)
  | .last statement, depth, owed => statement.endsShown granted depth owed
  | .cons _ others, depth, _ => (others.endsShown granted depth _).append _

def Body.Laid (body : Body) : Prop :=
  ∀ (depth next owed : Nat) (ended onLines : Bool) (old : List Piece), ∃ last,
    (blockStmts onLines (body.trees depth next)).run ((sheet depth owed ended false).weave old) =
      ((), (sheet depth (body.left 1 owed) last false).weave
        (old ++ body.pieces 1 depth owed ++ rowStart depth))

def Body.entered (body : Body) (owed : Nat) : Nat :=
  owed + if body.isLone then 1 else 0

theorem run_block {body : Body} (laid : body.Laid) (ends : EndsShown pieces) (spaced : Bool) :
    (stmt (body.block depth)).run ((sheet depth owed ended asked).weave (pieces ++ gap spaced)) =
      ((), (sheet depth (leftBehind 1 body.isLone (body.left 1) owed) true false).weave
        (pieces ++ none :: blockPieces depth (body.pieces 1 (depth + 1) (body.entered owed)) ++
          if asked then [] else rowStart depth)) := by
  let front := pieces ++ none :: mark .leftBrace :: rowStart (depth + 1)
  let inside := body.pieces 1 (depth + 1) (body.entered owed)
  have insideEnds : EndsShown (front ++ inside) := (body.endsShown 1 _ _).append front
  obtain ⟨last, run⟩ := laid (depth + 1) depth (body.entered owed) ended true front
  have shape : front ++ inside ++ rowStart depth ++ braceEnd depth asked =
      pieces ++ none :: blockPieces depth inside ++ if asked then [] else rowStart depth := by
    simp [front, blockPieces, braceEnd]
  rw [Body.block, stmt]
  refine run_same (run_bind (run_bind (run_openBlock body ends spaced) (run_bind run
    (run_closeBlock insideEnds))) ?_) shape
  exact run_terminate_brace _ asked

theorem run_condition (condition : Condition) (word : Keyword) (old : List Piece) :
    (Print.expr condition.tree).run ((sheet depth owed ended asked).weave
      (old ++ some (.ofKind (.keyword word)) :: gap true)) = ((), (sheet depth owed false asked).weave
        (old ++ some (.ofKind (.keyword word)) :: none :: condition.tree.pieces ++ gap true)) := by
  refine run_same (run_plain condition.plain rfl _) ?_
  simp [condition.spaced]

theorem endsShown_condition (condition : Condition) (word : Keyword) (old : List Piece) :
    EndsShown (old ++ some (.ofKind (.keyword word)) :: none :: condition.tree.pieces) :=
  (condition.plain.endsShown.append [_, _]).append old

theorem run_conditional {body : Body} (laid : body.Laid) (condition : Condition) {rest : Bool → Print Unit}
    {later : Page}
    (after : (rest false).run ((sheet depth (leftBehind 1 body.isLone (body.left 1) owed) true false).weave
      (old ++ headed .ifWord condition (blockPieces depth (body.pieces 1 (depth + 1) (body.entered owed))))) =
        ((), later)) :
    (do
      let indented ← openConditional [] condition.tree true
      stmt (body.block depth)
      rest indented).run ((sheet depth owed ended false).weave old) = ((), later) := by
  have opened : (openConditional [] condition.tree true).run ((sheet depth owed ended false).weave old) =
      (false, (sheet depth owed false true).weave
        (old ++ some (.ofKind (.keyword .ifWord)) :: none :: condition.tree.pieces ++ gap true)) :=
    run_bind (run_write _ old (.ofKind (.keyword .ifWord)) rfl true) <| run_bind rfl <| run_bind rfl <|
      run_bind rfl <| run_bind (@run_condition _ _ _ true condition .ifWord old) rfl
  have block := @run_block depth owed false true _ _ laid
    (endsShown_condition condition .ifWord old) true
  refine run_bind opened (run_bind (run_same block ?_) after)
  simp [headed]

theorem run_between_row (next : Nat) (ends : EndsShown pieces) :
    (betweenBranches [.rowBreak next] false).run ((sheet depth owed ended false).weave pieces) =
      ((), (sheet depth owed ended false).weave (pieces ++ rowStart depth)) :=
  congrArg ((), ·) (newline_stay_text ends)

theorem run_openElse (ends : EndsShown pieces) :
    (openElse [] false [] true).run ((sheet depth owed ended false).weave pieces) =
      (false, (sheet depth owed ended false).weave
        (pieces ++ [none, some (.ofKind (.keyword .elseWord))] ++ gap true)) := by
  have between : (betweenBranches [] false).run ((sheet depth owed ended false).weave pieces) =
      ((), (sheet depth owed ended false).weave (pieces ++ rowStart depth)) :=
    congrArg ((), ·) (newline_stay_text ends)
  have dropped : dropBlanks.run ((sheet depth owed ended false).weave (pieces ++ rowStart depth)) =
      ((), (sheet depth owed ended false).weave pieces) :=
    congrArg (fun dropped : Nat × Page => ((), dropped.2)) (dropBlanks_rowStart ends depth)
  have spaced := run_ensureSpace (sheet depth owed ended false) ends false
  rw [Piece.gap_false, List.append_nil] at spaced
  refine run_bind between (run_bind dropped (run_bind spaced ?_))
  refine run_same (run_bind (run_write _ _ (.ofKind (.keyword .elseWord)) rfl true) (run_bind rfl rfl)) ?_
  simp

theorem endsShown_else (old : List Piece) :
    EndsShown (old ++ [none, some (.ofKind (.keyword .elseWord))]) := by
  rw [List.append_cons]
  exact .snoc ((spelled_word .elseWord).shown nofun) _

/-- A conditional is laid out as its pieces, and the row behind it is started. -/
def Conditional.Laid (choice : Conditional) : Prop :=
  ∀ (depth next owed : Nat) (ended : Bool) (old : List Piece),
    (stmt (choice.tree depth next)).run ((sheet depth owed ended false).weave old) =
      ((), (sheet depth (choice.left 1 owed) true false).weave
        (old ++ choice.pieces 1 depth owed ++ rowStart depth))

def Statement.Laid (statement : Statement) : Prop :=
  ∀ (depth next owed : Nat) (ended onLines : Bool) (old : List Piece),
    (blockStmts onLines (statement.tree depth next ::
      if statement.takesBreak then [] else [.lineBreak])).run ((sheet depth owed ended false).weave old) =
        ((), (sheet depth (statement.left 1 owed) statement.takesBreak false).weave
          (old ++ statement.pieces 1 depth owed ++ rowStart depth))

theorem run_loop {body : Body} (laid : body.Laid) (word : LoopWord) (condition : Condition) (next : Nat)
    (old : List Piece) :
    (stmt ((Statement.loop word condition body).tree depth next)).run
      ((sheet depth owed ended false).weave old) =
        ((), (sheet depth ((Statement.loop word condition body).left 1 owed) true false).weave
          (old ++ (Statement.loop word condition body).pieces 1 depth owed ++ rowStart depth)) := by
  have opened : (openLoop (.ofKind (.keyword word.keyword)) [] condition.tree).run
      ((sheet depth owed ended false).weave old) = ((), (sheet depth owed false false).weave
        (old ++ some (.ofKind (.keyword word.keyword)) :: none :: condition.tree.pieces ++ gap true)) :=
    run_bind (run_writeToken _ old _ true) (run_bind rfl (run_condition condition word.keyword old))
  have block := @run_block depth owed false false _ _ laid
    (endsShown_condition condition word.keyword old) true
  have braced := endsBraced_headed word.keyword condition depth
    (body.pieces 1 (depth + 1) (body.entered owed))
  rw [Statement.tree, stmt]
  refine run_bind (run_bind opened (run_bind (run_same block ?_) rfl)) (run_terminate_row (braced.append old))
  simp [headed, Statement.pieces, Body.entered]

theorem run_closeBlockStatement_row (onLines written : Bool) (ends : EndsShown pieces) :
    (closeBlockStatement onLines written).run ((sheet depth owed ended false).weave (pieces ++ rowStart depth)) =
      ((), (sheet depth owed ended false).weave (pieces ++ rowStart depth)) := by
  refine run_bind rfl ?_
  rw [onBlankLine_rowStart ends]
  cases onLines <;> cases written <;> rfl

theorem run_follow_row (onLines written : Bool) (ends : EndsShown pieces) :
    (do closeBlockStatement onLines written; blockStmts onLines [.lineBreak] : Print Unit).run
      ((sheet depth owed true false).weave (pieces ++ rowStart depth)) =
        ((), (sheet depth owed false false).weave (pieces ++ rowStart depth)) := by
  rw [blockStmts, blockStmts]
  exact run_bind (run_closeBlockStatement_row onLines written ends) <| run_bind (run_lineBreak_ended _) <|
    run_bind (run_closeBlockStatement_row onLines _ ends) rfl

/-- A line break behind a statement that has not: in a block, one with a semicolon is broken off before. -/
theorem run_follow (onLines written : Bool) (ends : EndsShown pieces) (spaced : Bool) :
    (do closeBlockStatement onLines written; blockStmts onLines [.lineBreak] : Print Unit).run
      ((sheet depth owed false false).weave (pieces ++ gap spaced)) =
        ((), (sheet depth owed false false).weave (pieces ++ rowStart depth)) := by
  have idle : ∀ onLines written, (onLines && written) = false → (closeBlockStatement onLines written).run
      ((sheet depth owed false false).weave (pieces ++ gap spaced)) =
        ((), (sheet depth owed false false).weave (pieces ++ gap spaced)) := by
    intro onLines written none
    refine run_bind rfl ?_
    rw [none]
    rfl
  rw [blockStmts, blockStmts]
  cases closes : onLines && written with
  | false =>
    exact run_bind (idle onLines written closes) <| run_bind (run_lineBreak ends spaced) <|
      run_bind (run_closeBlockStatement_row onLines _ ends) rfl
  | true =>
    have broken : (closeBlockStatement onLines written).run
        ((sheet depth owed false false).weave (pieces ++ gap spaced)) =
          ((), (sheet depth owed true false).weave (pieces ++ rowStart depth)) := by
      have row : (newline .stay).run ((sheet depth owed false false).weave (pieces ++ gap spaced)) =
          ((), (sheet depth owed false false).weave (pieces ++ rowStart depth)) :=
        congrArg ((), ·) (newline_stay ends spaced)
      refine run_bind rfl ?_
      rw [closes, onBlankLine_shown ends]
      exact run_bind row rfl
    exact run_bind broken <| run_bind (run_lineBreak_ended _) <|
      run_bind (run_closeBlockStatement_row onLines _ ends) rfl

theorem run_blockStmts_append {onLines : Bool} {first second : List Stmt} {page middle later : Page}
    (front : (blockStmts onLines first).run page = ((), middle))
    (back : (blockStmts onLines second).run middle = ((), later)) :
    (blockStmts onLines (first ++ second)).run page = ((), later) := by
  induction first generalizing page with
  | nil =>
    cases front
    exact back
  | cons stmt others ih =>
    rw [blockStmts] at front
    rw [List.cons_append, blockStmts]
    exact run_bind rfl (run_bind rfl (ih front))

theorem Conditional.hasSemicolon_tree (choice : Conditional) (depth next : Nat) :
    (choice.tree depth next).hasSemicolon = false := by
  cases choice <;> rfl

mutual

theorem Statement.laid : ∀ statement : Statement, statement.Laid
  | .expression value => by
    intro depth next owed ended onLines old
    have ends := ((Statement.expression value).endsShown 1 depth owed).append old
    simp only [Statement.tree, Statement.takesBreak, Bool.false_eq_true, ↓reduceIte]
    rw [blockStmts]
    exact run_bind (run_closed value.plain old) (run_follow onLines true ends true)
  | .declaration name value => by
    intro depth next owed ended onLines old
    have ends := ((Statement.declaration name value).endsShown 1 depth owed).append old
    have here := @run_declaration depth owed ended name value old
    simp only [Statement.takesBreak, Bool.false_eq_true, ↓reduceIte]
    rw [blockStmts]
    refine run_bind here ?_
    cases owed with
    | zero => exact run_follow_row onLines true ends
    | succ owed => exact run_follow onLines true ends false
  | .conditional choice => by
    intro depth next owed ended onLines old
    have here := choice.laid depth next owed ended old
    have ends := (choice.endsBraced 1 depth owed).shown.append old
    rw [blockStmts]
    refine run_bind here ?_
    rw [Statement.tree, choice.hasSemicolon_tree, Statement.takesBreak]
    cases choice.takesBreak with
    | true => exact run_bind (run_closeBlockStatement_row onLines false ends) rfl
    | false => exact run_follow_row onLines false ends
  | .loop word condition body => by
    intro depth next owed ended onLines old
    have ends := ((Statement.loop word condition body).endsShown 1 depth owed).append old
    have here := @run_loop depth owed ended _ body.laid word condition next old
    simp only [Statement.takesBreak, Bool.false_eq_true, ↓reduceIte]
    rw [blockStmts]
    exact run_bind here (run_follow_row onLines false ends)

theorem Conditional.laid : ∀ choice : Conditional, choice.Laid
  | .plain condition body => by
    intro depth next owed ended old
    have braced := (Conditional.plain condition body).endsBraced 1 depth owed
    rw [Conditional.tree, stmt]
    refine run_bind (run_conditional body.laid condition
      (run_bind (run_between_row next (braced.append old).shown) rfl)) ?_
    exact run_terminate_row (braced.append old)
  | .withElse condition body other => by
    intro depth next owed ended old
    have braced := (Conditional.withElse condition body other).endsBraced 1 depth owed
    have first := endsBraced_headed .ifWord condition depth (body.pieces 1 (depth + 1) (body.entered owed))
    have second := @run_block depth (leftBehind 1 body.isLone (body.left 1) owed) true false _ _ other.laid
      (endsShown_else (old ++ headed .ifWord condition
        (blockPieces depth (body.pieces 1 (depth + 1) (body.entered owed))))) true
    rw [Conditional.tree, stmt]
    refine run_bind (run_conditional body.laid condition (run_bind (run_openElse (first.append old).shown)
      (run_bind (run_same second ?_) rfl))) (run_terminate_row (braced.append old))
    simp [Conditional.pieces, otherwise, Body.entered]
  | .withElseIf condition body other => by
    intro depth next owed ended old
    have braced := (Conditional.withElseIf condition body other).endsBraced 1 depth owed
    have first := endsBraced_headed .ifWord condition depth (body.pieces 1 (depth + 1) (body.entered owed))
    have second := other.laid depth next (leftBehind 1 body.isLone (body.left 1) owed) true
      (old ++ headed .ifWord condition (blockPieces depth (body.pieces 1 (depth + 1) (body.entered owed))) ++
        otherwise)
    have continues : ((other.tree depth next).isBlock || (other.tree depth next).isConditional) = true := by
      cases other <;> rfl
    rw [Conditional.tree, stmt]
    simp only [continues]
    have joined : old ++ headed .ifWord condition
        (blockPieces depth (body.pieces 1 (depth + 1) (body.entered owed))) ++
          [none, some (.ofKind (.keyword .elseWord))] ++ gap true = _ ++ otherwise := List.append_assoc ..
    refine run_bind (run_conditional body.laid condition (run_bind
      (run_same (run_openElse (first.append old).shown) joined) (run_bind (run_same second ?_) rfl)))
      (run_terminate_row (braced.append old))
    simp [Conditional.pieces, Body.entered]

theorem Body.laid : ∀ body : Body, body.Laid
  | .last statement => by
    intro depth next owed ended onLines old
    exact ⟨_, statement.laid depth next owed ended onLines old⟩
  | .cons statement others => by
    intro depth next owed ended onLines old
    have first := statement.laid depth depth owed ended onLines old
    obtain ⟨last, later⟩ := others.laid depth next (statement.left 1 owed) statement.takesBreak onLines
      (old ++ statement.pieces 1 depth owed ++ rowStart depth)
    refine ⟨last, run_same (run_blockStmts_append first later) ?_⟩
    simp [Body.pieces]

end

end Canonical

end GmlLayout
