import GmlLayout.Proofs.Token.Lossless
import Mathlib.Data.List.Induction
import Mathlib.Data.List.TakeWhile

/-!
Where tokens stand. A source is a row of stretches: gaps, and tokens as they are written. What stands in
front of a token gives its place: the line breaks there are its line, and the characters behind the last
of them its column, where a carriage return counts only inside a token. What stands behind a line break
gives its hint.
-/

namespace GmlLayout

open Munch

inductive Stretch where
  | gap (blanks : List Char)
  | written (token : Token)

namespace Stretch

def text : Stretch → List Char
  | .gap blanks => blanks
  | .written token => token.lexeme.toList

/-- The characters that count towards a column: all but the carriage returns of a gap. -/
def counted : Stretch → List Char
  | .gap blanks => blanks.filter (· != '\r')
  | .written token => token.lexeme.toList

def token? : Stretch → Option Token
  | .gap _ => none
  | .written token => some token

end Stretch

namespace Cursor

/-- A line break goes back to the left margin, every other character one to the right. -/
def columnStep (column : Nat) (c : Char) : Nat :=
  if c = '\n' then 0 else column + 1

theorem columnAfter_concat (column : Nat) (text : List Char) (c : Char) :
    columnAfter column (text ++ [c]) = columnStep (columnAfter column text) c := by
  by_cases last : c = '\n'
  · simp [columnAfter, columnStep, last]
  · have other : ('\n' = c) = False := eq_false (Ne.symm last)
    by_cases broken : '\n' ∈ text
    · simp [columnAfter, columnStep, last, broken]
    · simp [columnAfter, columnStep, last, other, broken, Nat.add_assoc]

theorem columnAfter_eq_foldl (column : Nat) (text : List Char) :
    columnAfter column text = text.foldl columnStep column := by
  induction text using List.reverseRecOn with
  | nil => rfl
  | append_singleton text c ih => rw [columnAfter_concat, ih, List.foldl_append]; rfl

theorem columnAfter_append (column : Nat) (first second : List Char) :
    columnAfter column (first ++ second) = columnAfter (columnAfter column first) second := by
  simp only [columnAfter_eq_foldl, List.foldl_append]

theorem columnAfter_zero (text : List Char) :
    columnAfter 0 text = (text.reverse.takeWhile (· != '\n')).length := by
  induction text using List.reverseRecOn with
  | nil => rfl
  | append_singleton text c ih =>
    rw [columnAfter_concat, ih, List.reverse_append, columnStep]
    by_cases last : c = '\n' <;> simp [last]

end Cursor

/-- From the given line and column, each token among the stretches stands at its place: where the text
in front of it leads. Behind a line break stands the margin that its hint counts. -/
def Placed (line column : Nat) (stretches : List Stretch) : Prop :=
  ∀ (before : List Stretch) (token : Token) (after : List Stretch),
    stretches = before ++ .written token :: after →
    token.line = line + (before.flatMap Stretch.text).count '\n' ∧
    token.column = Cursor.columnAfter column (before.flatMap Stretch.counted) ∧
    (token.kind = .newline →
      token.indentHint = indentLevels ((after.flatMap Stretch.text).takeWhile isIndent))

namespace Placed

variable {line column : Nat} {rest : List Stretch}

theorem nil : Placed line column [] := by
  intro before token after split
  cases before <;> cases split

theorem gap {blanks : List Char}
    (later : Placed (line + blanks.count '\n')
      (Cursor.columnAfter column (blanks.filter (· != '\r'))) rest) :
    Placed line column (.gap blanks :: rest) := by
  intro before token after split
  cases before with
  | nil => cases split
  | cons first before =>
    cases split
    obtain ⟨row, place, hint⟩ := later before token after rfl
    refine ⟨?_, ?_, hint⟩
    · rw [row, List.flatMap_cons, List.count_append, Nat.add_assoc]
      rfl
    · rw [place, List.flatMap_cons, Cursor.columnAfter_append]
      rfl

theorem written {token : Token} (row : token.line = line) (place : token.column = column)
    (hint : token.kind = .newline →
      token.indentHint = indentLevels ((rest.flatMap Stretch.text).takeWhile isIndent))
    (later : Placed (line + token.lexeme.toList.count '\n')
      (Cursor.columnAfter column token.lexeme.toList) rest) :
    Placed line column (.written token :: rest) := by
  intro before other after split
  cases before with
  | nil =>
    cases split
    exact ⟨row, place, hint⟩
  | cons first before =>
    cases split
    obtain ⟨row, place, hint⟩ := later before other after rfl
    refine ⟨?_, ?_, hint⟩
    · rw [row, List.flatMap_cons, List.count_append, Nat.add_assoc]
      rfl
    · rw [place, List.flatMap_cons, Cursor.columnAfter_append]
      rfl

end Placed

theorem Cut.newline_blanks {text rest : List Char} (cut : Cut .newline text rest) :
    ∃ blanks, text = '\n' :: blanks ∧ (∀ c ∈ blanks, isIndent c = true) ∧ Stops isIndent rest := by
  generalize kindEq : Kind.newline = kind at cut
  cases cut with
  | newline inside stops => exact ⟨_, rfl, inside, stops⟩
  | word starts inside stops => exact absurd kindEq (Cut.wordKind_ne _ (by simp) (by simp))
  | _ => cases kindEq

/-- Behind what a token is written as, the scanner takes at most the margin that a line break opens. -/
theorem Munch.text_tokenAt {first : Char} (source : List Char) (visible : isGap first = false)
    (line column : Nat) :
    ∃ margin, (read first source).text =
        ((read first source).tokenAt line column).lexeme.toList ++ margin ∧
      (∀ c ∈ margin, isIndent c = true) ∧
      ((read first source).kind = .newline →
        ((read first source).tokenAt line column).indentHint = indentLevels margin ∧
          Stops isIndent (read first source).rest) := by
  by_cases broken : (read first source).kind = .newline
  · have cut : Cut (read first source).kind (read first source).text (read first source).rest :=
      read_cut source visible
    rw [broken] at cut
    obtain ⟨blanks, text, inside, stops⟩ := cut.newline_blanks
    refine ⟨blanks, ?_, inside, fun _ => ⟨?_, stops⟩⟩
    · simp [Token.lexeme, tokenAt, payload, broken, text, Kind.carriesText, Kind.fixedText]
    · simp [Token.indentHint, tokenAt, payload, broken, text, Kind.carriesText]
  · obtain ⟨margin, text, _, none⟩ := lexeme_tokenAt source visible line column
    rw [none broken] at text
    exact ⟨[], text, by simp, fun other => absurd other broken⟩

namespace Cursor

theorem tokens_cases (cursor : Cursor) (bound : Nat) :
    ((∀ c ∈ cursor.rest, isGap c = true) ∧ cursor.tokens (bound + 1) = []) ∨
    ∃ first source, isGap first = false ∧
      cursor.rest = cursor.rest.takeWhile isGap ++ first :: source ∧
      (read first source).rest.length < cursor.rest.length ∧
      cursor.tokens (bound + 1) =
        (read first source).tokenAt cursor.skipGap.line cursor.skipGap.column ::
          (cursor.skipGap.advance (read first source)).tokens bound := by
  have whole : cursor.rest.takeWhile isGap ++ cursor.rest.dropWhile isGap = cursor.rest :=
    List.takeWhile_append_dropWhile
  cases rest : cursor.rest.dropWhile isGap with
  | nil =>
    have blank := List.dropWhile_eq_nil_iff.mp rest
    exact .inl ⟨blank, tokens_of_gap blank _⟩
  | cons first source =>
    have visible : isGap first = false := by
      have stops := List.head?_dropWhile_not isGap cursor.rest
      rwa [rest] at stops
    rw [rest] at whole
    refine .inr ⟨first, source, visible, whole.symm, ?_, ?_⟩
    · have cutOff := congrArg List.length (read_append first source)
      have all := congrArg List.length whole
      have some := List.length_pos_iff.mpr (read_spells source visible).ne_nil
      simp only [List.length_append, List.length_cons] at cutOff all
      omega
    · have skipped : cursor.skipGap.rest = first :: source := rest
      rw [tokens, next]
      simp only [skipped]
      rfl

theorem skipGap_line (cursor : Cursor) :
    cursor.skipGap.line = cursor.line + (cursor.rest.takeWhile isGap).count '\n' := by
  have none : (cursor.rest.takeWhile isGap).count '\n' = 0 :=
    List.count_eq_zero.mpr fun broken => by cases List.all_eq_true.mp List.all_takeWhile _ broken
  rw [none]
  rfl

theorem skipGap_column (cursor : Cursor) :
    cursor.skipGap.column =
      columnAfter cursor.column ((cursor.rest.takeWhile isGap).filter (· != '\r')) := by
  have unbroken : '\n' ∉ (cursor.rest.takeWhile isGap).filter (· != '\r') := by
    intro broken
    cases List.all_eq_true.mp List.all_takeWhile _ (List.mem_filter.mp broken).1
  rw [columnAfter, if_neg unbroken, ← List.countP_eq_length_filter]
  rfl

/-- One turn of the scanner: a gap, a token and the margin behind it lead to the place where the later
stretches start. -/
theorem placed_step (cursor : Cursor) {munch : Munch} {token : Token} {margin : List Char}
    {stretches : List Stretch} (row : token.line = cursor.skipGap.line)
    (place : token.column = cursor.skipGap.column)
    (written : munch.text = token.lexeme.toList ++ margin) (inside : ∀ c ∈ margin, isIndent c = true)
    (remains : stretches.flatMap Stretch.text = munch.rest)
    (hint : token.kind = .newline → token.indentHint = indentLevels margin ∧ Stops isIndent munch.rest)
    (placed : Placed (cursor.skipGap.advance munch).line (cursor.skipGap.advance munch).column
      stretches) :
    Placed cursor.line cursor.column
      (.gap (cursor.rest.takeWhile isGap) :: .written token :: .gap margin :: stretches) := by
  apply Placed.gap
  rw [← skipGap_line, ← skipGap_column]
  apply Placed.written row place
  · intro broken
    obtain ⟨counted, stops⟩ := hint broken
    have blanks : (margin ++ munch.rest).takeWhile isIndent = margin :=
      congrArg Prod.fst (run_eq inside stops)
    rw [counted, List.flatMap_cons, remains, Stretch.text, blanks]
  · apply Placed.gap
    have plain : margin.filter (· != '\r') = margin := by
      rw [List.filter_eq_self]
      intro c among
      have indent := inside c among
      by_contra other
      cases show c = '\r' by simpa using other
      cases indent
    rw [plain, ← columnAfter_append, ← written, Nat.add_assoc, ← List.count_append, ← written]
    exact placed

/-- The tokens of what is left to read, in a row with the gaps around them, stand at their places. -/
theorem tokens_placed {cursor : Cursor} {bound : Nat} (enough : cursor.rest.length ≤ bound) :
    ∃ stretches : List Stretch, stretches.flatMap Stretch.text = cursor.rest ∧
      stretches.filterMap Stretch.token? = cursor.tokens bound ∧
      (∀ blanks, .gap blanks ∈ stretches → ∀ c ∈ blanks, isGap c = true) ∧
      Placed cursor.line cursor.column stretches := by
  induction bound generalizing cursor with
  | zero =>
    have none : cursor.rest = [] := List.length_eq_zero_iff.mp (Nat.le_zero.mp enough)
    exact ⟨[], none.symm, rfl, by simp, .nil⟩
  | succ bound ih =>
    obtain ⟨blank, none⟩ | ⟨first, source, visible, split, shorter, step⟩ := cursor.tokens_cases bound
    · refine ⟨[.gap cursor.rest], by simp [Stretch.text], by simp [Stretch.token?, none], ?_, .gap .nil⟩
      simpa using blank
    · obtain ⟨stretches, remains, tokens, gaps, placed⟩ :=
        @ih (cursor.skipGap.advance (read first source)) (Nat.le_of_lt_succ (shorter.trans_le enough))
      obtain ⟨margin, written, inside, hint⟩ :=
        text_tokenAt source visible cursor.skipGap.line cursor.skipGap.column
      refine ⟨_, ?_, ?_, ?_, cursor.placed_step rfl rfl written inside remains hint placed⟩
      · simp only [List.flatMap_cons, Stretch.text, remains]
        rw [← List.append_assoc _ margin, ← written]
        exact (congrArg _ (read_append first source)).trans split.symm
      · rw [step, ← tokens]
        rfl
      · intro blanks member
        simp only [List.mem_cons, reduceCtorEq, Stretch.gap.injEq, false_or] at member
        obtain rfl | rfl | member := member
        · exact List.all_eq_true.mp List.all_takeWhile
        · intro c among
          rw [isGap, inside c among, Bool.true_or]
        · exact gaps blanks member

end Cursor

/-- A source is a row of gaps and of its tokens, and in it each token stands at its place: its line is the
number of line breaks in front of it, its column the number of characters there behind the last of them,
without the carriage returns between tokens. The hint of a line break counts the blanks right behind it.
Each token stands before the next one. -/
theorem scan_places (source : String) :
    (∃ stretches : List Stretch, stretches.flatMap Stretch.text = source.toList ∧
      stretches.filterMap Stretch.token? = scan source ∧
      (∀ blanks, .gap blanks ∈ stretches → ∀ c ∈ blanks, c = ' ' ∨ c = '\t' ∨ c = '\r') ∧
      ∀ (before : List Stretch) (token : Token) (after : List Stretch),
        stretches = before ++ .written token :: after →
        token.line = (before.flatMap Stretch.text).count '\n' ∧
        token.column =
          ((before.flatMap Stretch.counted).reverse.takeWhile (· != '\n')).length ∧
        (token.kind = .newline →
          let margin := (after.flatMap Stretch.text).takeWhile fun c => c == ' ' || c == '\t'
          token.indentHint = ((margin.count ' ' + 4 * margin.count '\t') / 4 : Nat))) ∧
    (scan source).Pairwise Token.Before := by
  refine ⟨?_, (Cursor.tokens_ordered _ _).2⟩
  obtain ⟨stretches, text, tokens, gaps, placed⟩ :=
    @Cursor.tokens_placed (.start source.toList) source.toList.length (Nat.le_refl _)
  refine ⟨stretches, text, tokens, fun blanks member c among => ?_, fun before token after split => ?_⟩
  · simpa [isGap, isIndent, or_assoc] using gaps blanks member c among
  · obtain ⟨row, place, hint⟩ := placed before token after split
    refine ⟨?_, ?_, hint⟩
    · rw [row]
      exact Nat.zero_add _
    · rw [place, ← Cursor.columnAfter_zero]
      rfl

end GmlLayout
