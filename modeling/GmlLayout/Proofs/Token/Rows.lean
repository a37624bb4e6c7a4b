import GmlLayout.Proofs.Token.Weave

/-!
Texts that are woven in rows. A line break takes the blanks behind it as its hint, so a row starts with
its line break and its margin, and these are read as one token. What has been woven is read piece by
piece, in front of whatever follows it.
-/

namespace GmlLayout

open Munch

def Token.rowBreak (depth : Nat) : Token :=
  ⟨.newline, (⟨.newline, '\n' :: List.replicate (4 * depth) ' ', []⟩ : Munch).payload, 0, 0⟩

theorem Token.lexeme_rowBreak (depth : Nat) : (rowBreak depth).lexeme = "\n" := rfl

def rowStart (depth : Nat) : List Piece :=
  some (.rowBreak depth) :: List.replicate (4 * depth) none

@[simp] theorem wovenText_append (front back : List Piece) :
    wovenText (front ++ back) = wovenText front ++ wovenText back :=
  List.flatMap_append

theorem wovenText_rowStart (depth : Nat) :
    wovenText (rowStart depth) = '\n' :: List.replicate (4 * depth) ' ' := by
  have margin : ∀ count, wovenText (List.replicate count none) = List.replicate count ' ' := by
    intro count
    induction count with
    | zero => rfl
    | succ count ih => rw [List.replicate_succ, wovenText_cons, ih]; rfl
  have lineBreak : Piece.toText (some (.rowBreak depth)) = ['\n'] := by
    rw [Piece.toText, Token.lexeme_rowBreak]
    rfl
  rw [rowStart, wovenText_cons, margin, lineBreak]
  rfl

theorem wovenTokens_rowStart (depth : Nat) : wovenTokens (rowStart depth) = [.rowBreak depth] := by
  simp [rowStart, wovenTokens]

/-- In front of the text `more` the scanner finds the tokens of the pieces and then goes on with that
text. -/
def Legible (pieces : List Piece) (more : List Char) : Prop :=
  ∀ (cursor : Cursor) (gap : List Char) (bound : Nat), (∀ c ∈ gap, isGap c = true) →
    cursor.rest = gap ++ (wovenText pieces ++ more) → (wovenText pieces ++ more).length ≤ bound →
    ∃ (later : Cursor) (wider : List Char) (left : Nat), (∀ c ∈ wider, isGap c = true) ∧
      later.rest = wider ++ more ∧ more.length ≤ left ∧
      (cursor.tokens bound).map Token.unplaced =
        (wovenTokens pieces ++ later.tokens left).map Token.unplaced

namespace Legible

variable {pieces others : List Piece} {more : List Char} {token : Token}

theorem append (front : Legible pieces (wovenText others ++ more)) (back : Legible others more) :
    Legible (pieces ++ others) more := by
  intro cursor gap bound blank rest enough
  rw [wovenText_append, List.append_assoc] at rest enough
  obtain ⟨middle, wider, left, wideBlank, middleRest, steps, first⟩ := front cursor gap bound blank rest enough
  obtain ⟨later, widest, last, lastBlank, lastRest, fewer, second⟩ := back middle wider left wideBlank middleRest steps
  refine ⟨later, widest, last, lastBlank, lastRest, fewer, ?_⟩
  rw [first, List.map_append, second, ← List.map_append, ← List.append_assoc]
  congr 2
  exact List.filterMap_append.symm

theorem space : Legible [none] more := by
  intro cursor gap bound blank rest enough
  refine ⟨cursor, gap ++ [' '], bound, fun c member => ?_, ?_, ?_, rfl⟩
  · obtain member | member := List.mem_append.mp member
    · exact blank c member
    · rw [List.mem_singleton.mp member]
      rfl
  · rw [rest, List.append_assoc]
    rfl
  · rw [List.length_append] at enough
    exact Nat.le_of_add_left_le enough

theorem of_cut {kind : Kind} (cut : Cut kind (wovenText pieces) more) (one : wovenTokens pieces = [token])
    (isKind : token.kind = kind)
    (payload : token.payload = (⟨kind, wovenText pieces, []⟩ : Munch).payload) : Legible pieces more := by
  intro cursor gap bound blank rest enough
  obtain ⟨first, rest', shape, reread⟩ := cut.read
  have visible : isGap first = false := by
    have visible := cut.visible
    rw [shape] at visible
    exact visible
  rw [shape, List.cons_append] at rest enough
  obtain ⟨found, next, placed⟩ := Cursor.next_eq rest blank visible
  rw [reread] at next placed
  have same : found.unplaced = token.unplaced := by
    rw [placed, Token.unplaced, isKind, payload]
    rfl
  rw [List.length_cons, List.length_append] at enough
  cases bound with
  | zero => omega
  | succ bound =>
    refine ⟨cursor.skipGap.advance ⟨kind, wovenText pieces, more⟩, [], bound, noGap, rfl, by omega, ?_⟩
    rw [Cursor.tokens, next, one]
    exact congrArg₂ List.cons same rfl

theorem of_spelled (spelled : token.Spelled) (stops : Stops token.takesUp more) :
    Legible [some token] more := by
  have text : wovenText [some token] = token.lexeme.toList := List.append_nil _
  exact of_cut (text ▸ spelled.cut more stops) rfl rfl (text ▸ spelled.payload)

theorem rowStart {depth : Nat} (stops : Stops isIndent more) : Legible (rowStart depth) more := by
  have blanks : ∀ c ∈ List.replicate (4 * depth) ' ', isIndent c = true := by
    intro c member
    rw [List.eq_of_mem_replicate member]
    rfl
  exact of_cut (wovenText_rowStart depth ▸ .newline blanks stops) (wovenTokens_rowStart depth) rfl
    (wovenText_rowStart depth ▸ rfl)

/-- What is woven is found, in front of everything that its last token does not take up. -/
theorem of_weave {first last : Token} (weave : Weave pieces first last)
    (stops : Stops last.takesUp more) : Legible pieces more := by
  have ends := weave.ends
  have chain := weave.chain
  have spelled := weave.spelled
  clear weave
  induction pieces with
  | nil => cases ends
  | cons piece pieces ih =>
    have later := fun token member => spelled token (List.mem_cons_of_mem _ member)
    have one : Legible [piece] (wovenText pieces ++ more) := by
      cases piece with
      | none => exact space
      | some token =>
        refine of_spelled (spelled token List.mem_cons_self) ?_
        cases pieces with
        | nil =>
          cases ends
          exact stops
        | cons next pieces =>
          have fits : Stops token.takesUp next.toText := chain.rel
          have shown : next.toText ≠ [] := by
            cases next with
            | none => exact List.cons_ne_nil _ _
            | some next => exact (later next List.mem_cons_self).ne_nil
          refine fits.of_head? ?_
          rw [List.head?_append, head?_wovenText shown]
          obtain ⟨c, text, shape⟩ := List.exists_cons_of_ne_nil shown
          rw [shape]
          rfl
    cases pieces with
    | nil => exact one
    | cons next pieces =>
      rw [List.getLast?_cons_cons] at ends
      exact one.append (ih ends chain.tail later)

end Legible

theorem scan_legible {pieces : List Piece} (legible : Legible pieces []) {source : String}
    (woven : source.toList = wovenText pieces) :
    (scan source).map Token.unplaced = (wovenTokens pieces).map Token.unplaced := by
  have enough : (wovenText pieces ++ []).length ≤ source.toList.length := by
    rw [woven, List.append_nil]
  obtain ⟨later, wider, left, blank, rest, _, found⟩ :=
    legible (.start source.toList) [] source.toList.length noGap (by rw [List.append_nil]; exact woven) enough
  have none : later.tokens left = [] :=
    Cursor.tokens_of_gap (by rw [rest, List.append_nil]; exact blank) left
  rw [none, List.append_nil] at found
  exact found

end GmlLayout
