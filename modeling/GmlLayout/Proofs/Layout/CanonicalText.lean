import GmlLayout.Proofs.Layout.CanonicalLayout

/-!
The formatted text of a canonical program. It is the standard text, but for the semicolons of those
declarations that an exemption was left for. An exemption is meant for the line that the body of a block
stands on; a body that is an `if` alone does not end a line with it, and hands it down to the statements
inside.
-/

namespace GmlLayout

open Piece (mark)

/-- The second list is the first one without `count` occurrences of a certain entry. -/
inductive Without {α : Type} (entry : α) : Nat → List α → List α → Prop where
  | nil : Without entry 0 [] []
  | keep {count : Nat} {longer shorter : List α} (kept : α) (later : Without entry count longer shorter) :
      Without entry count (kept :: longer) (kept :: shorter)
  | drop {count : Nat} {longer shorter : List α} (later : Without entry count longer shorter) :
      Without entry (count + 1) (entry :: longer) shorter

namespace Without

variable {α : Type} {entry : α} {count more : Nat} {longer shorter others fewer : List α}

theorem refl (entries : List α) : Without entry 0 entries entries := by
  induction entries with
  | nil => exact .nil
  | cons kept entries ih => exact .keep kept ih

theorem append (front : Without entry count longer shorter) (back : Without entry more others fewer) :
    Without entry (count + more) (longer ++ others) (shorter ++ fewer) := by
  induction front with
  | nil =>
    rw [Nat.zero_add]
    exact back
  | keep kept _ ih => exact .keep kept ih
  | drop _ ih =>
    rw [Nat.add_right_comm]
    exact .drop ih

theorem length (without : Without entry count longer shorter) : shorter.length + count = longer.length := by
  induction without with
  | nil => rfl
  | keep kept _ ih => simp only [List.length_cons, ← ih, Nat.add_right_comm]
  | drop _ ih => rw [List.length_cons, ← ih, Nat.add_assoc]

theorem eq_iff (without : Without entry count longer shorter) : shorter = longer ↔ count = 0 := by
  constructor
  · rintro rfl
    exact Nat.add_left_cancel (without.length.trans (Nat.add_zero _).symm)
  · rintro rfl
    have same : ∀ {count : Nat}, Without entry count longer shorter → count = 0 → shorter = longer := by
      clear without
      intro count without none
      induction without with
      | nil => rfl
      | keep kept _ ih => rw [ih none]
      | drop => cases none
    exact same without rfl

end Without

namespace Canonical

open Page Print

mutual

/-- How many declarations go without a semicolon, where so many exemptions are left. -/
def Statement.omitted : Statement → Nat → Nat
  | .expression _, _ => 0
  | .declaration _ _, owed => if owed = 0 then 0 else 1
  | .conditional choice, owed => choice.omitted owed
  | .loop _ _ body, owed => body.omitted (body.entered owed)

def Conditional.omitted : Conditional → Nat → Nat
  | .plain _ body, owed => body.omitted (body.entered owed)
  | .withElse _ body other, owed =>
    body.omitted (body.entered owed) +
      other.omitted (other.entered (leftBehind 1 body.isLone (body.left 1) owed))
  | .withElseIf _ body other, owed =>
    body.omitted (body.entered owed) + other.omitted (leftBehind 1 body.isLone (body.left 1) owed)

def Body.omitted : Body → Nat → Nat
  | .last statement, owed => statement.omitted owed
  | .cons statement others, owed => statement.omitted owed + others.omitted (statement.left 1 owed)

end

theorem without_block {count depth : Nat} {longer shorter : List Piece}
    (inside : Without (mark .semicolon) count longer shorter) :
    Without (mark .semicolon) count (blockPieces depth longer) (blockPieces depth shorter) := by
  have front := (@Without.refl _ (mark .semicolon) (mark .leftBrace :: rowStart (depth + 1))).append inside
  have back := front.append (.refl (rowStart depth ++ [mark .rightBrace]))
  rw [Nat.zero_add, Nat.add_zero] at back
  simpa [blockPieces] using back

theorem without_headed {count : Nat} {longer shorter : List Piece} (word : Keyword) (condition : Condition)
    (block : Without (mark .semicolon) count longer shorter) :
    Without (mark .semicolon) count (headed word condition longer) (headed word condition shorter) := by
  have front := (@Without.refl _ (mark .semicolon)
    (some (.ofKind (.keyword word)) :: none :: condition.tree.pieces ++ [none])).append block
  rw [Nat.zero_add] at front
  simpa [headed] using front

theorem without_otherwise {count more : Nat} {longer shorter others fewer : List Piece}
    (front : Without (mark .semicolon) count longer shorter)
    (back : Without (mark .semicolon) more others fewer) :
    Without (mark .semicolon) (count + more) (longer ++ otherwise ++ others) (shorter ++ otherwise ++ fewer) :=
  (front.append (.refl otherwise)).append back

mutual

theorem Statement.without : ∀ (statement : Statement) (depth owed : Nat),
    Without (mark .semicolon) (statement.omitted owed) (statement.pieces 0 depth 0)
      (statement.pieces 1 depth owed)
  | .expression value, _, _ => .refl _
  | .declaration name value, depth, owed => by
    rw [Statement.omitted, Statement.pieces, Statement.pieces]
    cases owed with
    | zero => exact .refl _
    | succ owed =>
      have front := @Without.refl _ (mark .semicolon)
        (some (.ofKind (.keyword .varWord)) :: none :: (declared name value).pieces)
      exact front.append (.drop .nil)
  | .conditional choice, depth, owed => choice.without depth owed
  | .loop word condition body, depth, owed => by
    simp only [Statement.pieces, ite_self, Nat.add_zero]
    exact without_headed word.keyword condition (without_block (body.without (depth + 1) _))

theorem Conditional.without : ∀ (choice : Conditional) (depth owed : Nat),
    Without (mark .semicolon) (choice.omitted owed) (choice.pieces 0 depth 0) (choice.pieces 1 depth owed)
  | .plain condition body, depth, owed => by
    simp only [Conditional.pieces, ite_self, Nat.add_zero]
    exact without_headed .ifWord condition (without_block (body.without (depth + 1) _))
  | .withElse condition body other, depth, owed => by
    simp only [Conditional.pieces, ite_self, Nat.add_zero, leftBehind_zero]
    exact without_otherwise (without_headed .ifWord condition (without_block (body.without (depth + 1) _)))
      (without_block (other.without (depth + 1) _))
  | .withElseIf condition body other, depth, owed => by
    simp only [Conditional.pieces, ite_self, Nat.add_zero, leftBehind_zero]
    exact without_otherwise (without_headed .ifWord condition (without_block (body.without (depth + 1) _)))
      (other.without depth _)

theorem Body.without : ∀ (body : Body) (depth owed : Nat),
    Without (mark .semicolon) (body.omitted owed) (body.pieces 0 depth 0) (body.pieces 1 depth owed)
  | .last statement, depth, owed => statement.without depth owed
  | .cons statement others, depth, owed => by
    rw [Body.pieces, Body.pieces, statement.left_zero]
    exact ((statement.without depth owed).append (.refl (rowStart depth))).append
      (others.without depth _)

end

theorem without_wovenText {count : Nat} {longer shorter : List Piece}
    (without : Without (mark .semicolon) count longer shorter) :
    Without ';' count (wovenText longer) (wovenText shorter) := by
  induction without with
  | nil => exact .nil
  | @keep count _ _ kept _ ih =>
    have front := (@Without.refl _ ';' kept.toText).append ih
    rw [Nat.zero_add] at front
    rw [wovenText_cons, wovenText_cons]
    exact front
  | drop _ ih =>
    rw [wovenText_cons]
    exact .drop ih

theorem run_stmts_of_blockStmts {statements : List Stmt} {page later : Page}
    (run : (blockStmts false statements).run page = ((), later)) :
    (stmts statements).run page = ((), later) := by
  induction statements generalizing page with
  | nil => exact run
  | cons first others ih =>
    rw [blockStmts] at run
    rw [stmts]
    exact run_bind rfl (ih run)

theorem output_trees (program : Body) : (layOut {} (program.trees 0 0)).output.toList =
    wovenText (program.pieces 1 0 0 ++ rowStart 0) := by
  obtain ⟨last, laid⟩ := program.laid 0 0 0 false false []
  rw [List.nil_append] at laid
  have whole : (Print.program (program.trees 0 0)).run (Page.blank {}) = _ :=
    run_bind (run_stmts_of_blockStmts laid) (run_finish (program.endsShown 1 0 0) (isBlank_separator 1))
  rw [layOut, whole]
  exact output_weave {} _

theorem exists_format_render (program : Body) : ∃ output, format {} (program.render 0) = .ok output ∧
    Without ';' (program.omitted 0) (program.render 0).toList output.toList := by
  obtain ⟨stop, read⟩ := parseTokens_pieces program
  refine ⟨_, format_of_tokens (scan_render program) read {}, ?_⟩
  rw [output_trees, program.toList_program]
  exact without_wovenText ((program.without 0 0).append (.refl _))

/-- The standard text of a canonical program is left as it is if and only if no declaration in it comes
upon an exemption. -/
theorem format_render_iff (program : Body) :
    format {} (program.render 0) = .ok (program.render 0) ↔ program.omitted 0 = 0 := by
  obtain ⟨output, formatted, without⟩ := exists_format_render program
  rw [formatted, Except.ok.injEq, ← without.eq_iff]
  exact String.toList_inj.symm

/-- A source with the tokens of a standard text in which no declaration comes upon an exemption. -/
def Styled (source : String) : Prop :=
  ∃ program : Body, program.omitted 0 = 0 ∧
    (scan source).map Token.unplaced = (scan (program.render 0)).map Token.unplaced

theorem Styled.exists_format {source : String} (styled : Styled source) {program : List Stmt}
    (parsed : parse source = .ok program) :
    ∃ output, format {} source = .ok output ∧ format {} output = .ok output := by
  obtain ⟨standard, kept, same⟩ := styled
  obtain ⟨output, formatted, without⟩ := exists_format_render standard
  have whole : output = standard.render 0 := String.toList_inj.mp (without.eq_iff.mpr kept)
  have spaced := format_eq_of_unplaced same parsed {}
  exact ⟨output, spaced.trans formatted, by rw [whole, formatted, whole]⟩

def nestedDeclaration : Body :=
  let a : Name := ⟨"a", @Cut.word 'a' [] [] (by decide) nofun .nil⟩
  let b : Name := ⟨"b", @Cut.word 'b' [] [] (by decide) nofun .nil⟩
  let x : Name := ⟨"x", @Cut.word 'x' [] [] (by decide) nofun .nil⟩
  let one : Number := ⟨"1", @Cut.whole '1' [] [] (by decide) nofun .nil fun _ _ => .nil⟩
  .last (.conditional (.plain (.enclosed (.name a)) (.last (.conditional (.plain (.enclosed (.name b))
    (.last (.declaration x (.number one))))))))

/-- Not every canonical program is left as it is. -/
theorem nestedDeclaration_altered :
    nestedDeclaration.render 0 = "if (a) \x7b\n    if (b) \x7b\n        var x = 1;\n    \x7d\n\x7d\n" ∧
    format {} (nestedDeclaration.render 0) =
      .ok "if (a) \x7b\n    if (b) \x7b\n        var x = 1\n    \x7d\n\x7d\n" ∧
    ¬ ∀ program : Body, format {} (program.render 0) = .ok (program.render 0) := by
  have text : nestedDeclaration.render 0 =
      "if (a) \x7b\n    if (b) \x7b\n        var x = 1;\n    \x7d\n\x7d\n" := by decide +kernel
  have formatted : format {} "if (a) \x7b\n    if (b) \x7b\n        var x = 1;\n    \x7d\n\x7d\n" =
      .ok "if (a) \x7b\n    if (b) \x7b\n        var x = 1\n    \x7d\n\x7d\n" := by decide +kernel
  rw [text]
  refine ⟨rfl, formatted, fun fixed => ?_⟩
  have kept := fixed nestedDeclaration
  rw [text, formatted] at kept
  revert kept
  decide

def guardedLoop : Body :=
  let a : Name := ⟨"a", @Cut.word 'a' [] [] (by decide) nofun .nil⟩
  let b : Name := ⟨"b", @Cut.word 'b' [] [] (by decide) nofun .nil⟩
  let f : Name := ⟨"f", @Cut.word 'f' [] [] (by decide) nofun .nil⟩
  let one : Number := ⟨"1", @Cut.whole '1' [] [] (by decide) nofun .nil fun _ _ => .nil⟩
  .last (.conditional (.plain (.enclosed (.name a)) (.last (.loop .while (.enclosed (.name b))
    (.last (.expression (.call f [.number one])))))))

theorem styled_guardedLoop :
    Styled "if(a)\x7b\n    while ( b) \x7b\n        f(1)  ;\n    \x7d\n\x7d\n" := by
  have text : guardedLoop.render 0 = "if (a) \x7b\n    while (b) \x7b\n        f(1);\n    \x7d\n\x7d\n" := by
    decide +kernel
  refine ⟨guardedLoop, rfl, ?_⟩
  rw [text]
  decide +kernel

end Canonical

end GmlLayout
