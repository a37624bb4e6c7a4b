import GmlLayout.Proofs.Layout.NormalForm
import GmlLayout.Proofs.Layout.SafeStatements

/-!
Texts that take up their line stand last on it: in the layout of a program that shelters its remarks, each
is the last fragment or is followed by a line break.
-/

namespace GmlLayout

open Print

def Kind.takesLine : Kind → Bool
  | .lineComment | .regionBegin | .regionEnd | .macroLine => true
  | _ => false

theorem Spells.takesLine {kind : Kind} {text : List Char} (spells : Spells kind text)
    (takes : kind.takesLine = true) :
    (lineBoundOpenings.any fun opening => opening.toList.isPrefixOf text) = true := by
  have starts : ∀ opening ∈ lineBoundOpenings, ∀ body, text = opening.toList ++ body →
      (lineBoundOpenings.any fun opening => opening.toList.isPrefixOf text) = true := by
    intro opening member body shape
    refine List.any_eq_true.mpr ⟨opening, member, ?_⟩
    rw [List.isPrefixOf_iff_prefix, shape]
    exact List.prefix_append _ _
  cases spells with
  | lineComment body => exact starts "//" (by decide) body rfl
  | regionBegin body => exact starts "#region" (by decide) body rfl
  | regionEnd body => exact starts "#endregion" (by decide) body rfl
  | macroLine body => exact starts "#macro" (by decide) body rfl
  | _ => cases takes

theorem isLineBound_of_takesLine {source : String} {token : Token} (member : token ∈ scan source)
    (takes : token.kind.takesLine = true) : token.isLineBound = true := by
  have visible : token.kind ≠ .newline := by
    intro newline
    rw [newline] at takes
    cases takes
  exact (spells_of_mem_scan member visible).takesLine takes

namespace Buffer

/-- In a buffer in normal form with nothing behind a text that takes up its line, such a text is followed by
a line break, or by a single space or nothing at the end. -/
theorem Neat.behind_lineBound {blank : Fragment} {buffer : Buffer} (neat : Neat blank buffer)
    (whole : buffer.intact = true) {later earlier : Buffer} {content : String}
    (shape : buffer = later ++ .text content :: earlier) (bound : isLineBound content = true) :
    later = [] ∨ later = [.space] ∨ ∃ rest, later = rest ++ [.newline] := by
  induction neat generalizing later with
  | nil => exact absurd shape (by simp)
  | @text buffer other neat ih =>
    cases later with
    | nil => exact .inl rfl
    | cons last later =>
      obtain ⟨rfl, rfl⟩ := List.cons.inj shape
      rw [intact, Bool.and_eq_true, Bool.not_eq_true'] at whole
      obtain rfl | rfl | ⟨rest, rfl⟩ := ih whole.2 rfl
      · exact absurd whole.1 (by simp [blocked, bound])
      · exact absurd whole.1 (by simp [blocked, bound])
      · exact .inr (.inr ⟨.text other :: rest, rfl⟩)
  | @space other buffer neat ih =>
    cases later with
    | nil => exact .inl rfl
    | cons last later =>
      obtain ⟨rfl, inner⟩ := List.cons.inj shape
      obtain rfl | rfl | ⟨rest, rfl⟩ := ih whole inner
      · exact .inr (.inl rfl)
      · cases inner
      · exact .inr (.inr ⟨.space :: rest, rfl⟩)
  | @newline buffer neat breakable few ih =>
    cases later with
    | nil => exact .inl rfl
    | cons last later =>
      obtain ⟨rfl, rfl⟩ := List.cons.inj shape
      obtain rfl | rfl | ⟨rest, rfl⟩ := ih whole rfl
      · exact .inr (.inr ⟨[], rfl⟩)
      · obtain below | ⟨other, earlier, text⟩ := breakable
        · exact absurd below (by simp [breaks])
        · cases text
      · exact .inr (.inr ⟨.newline :: rest, rfl⟩)
  | @margin fragment buffer same indents neat below ih =>
    cases later with
    | nil => exact .inl rfl
    | cons last later =>
      obtain ⟨rfl, rfl⟩ := List.cons.inj shape
      obtain rfl | rfl | ⟨rest, rfl⟩ := ih (@intact_of_append [fragment] _ whole) rfl
      · exact absurd below (by simp [breaks])
      · exact absurd below (by simp [breaks])
      · exact .inr (.inr ⟨fragment :: rest, rfl⟩)

theorem split_breaks {count : Nat} {body later earlier : Buffer} {content : String}
    (shape : List.replicate count .newline ++ body = later ++ .text content :: earlier) :
    ∃ inner, later = List.replicate count .newline ++ inner ∧ body = inner ++ .text content :: earlier := by
  induction count generalizing later with
  | zero => exact ⟨later, rfl, shape⟩
  | succ count ih =>
    cases later with
    | nil => cases shape
    | cons last later =>
      rw [List.replicate_succ, List.cons_append, List.cons_append, List.cons.injEq] at shape
      obtain ⟨inner, back, inside⟩ := ih shape.2
      exact ⟨inner, by rw [← shape.1, back, List.replicate_succ, List.cons_append], inside⟩

end Buffer

theorem behind_of_isolated {before later : List Fragment} {content : String}
    (whole : isolated (before ++ .text content :: later) = true) (bound : isLineBound content = true) :
    later = [] ∨ later.head? = some .newline := by
  induction before with
  | nil =>
    rw [List.nil_append, isolated, bound, Bool.and_eq_true] at whole
    simpa using whole.1
  | cons fragment before ih =>
    cases fragment with
    | text other => exact ih (Bool.and_eq_true _ _ ▸ whole).2
    | space | tab | newline => exact ih whole

/-- Fragments are isolated if behind every text that takes up its line there is nothing or a line break. -/
theorem isolated_of_behind {fragments : List Fragment}
    (behind : ∀ before content later, fragments = before ++ .text content :: later →
      isLineBound content = true → later = [] ∨ later.head? = some .newline) :
    isolated fragments = true := by
  induction fragments with
  | nil => rfl
  | cons fragment rest ih =>
    have inner : isolated rest = true := ih fun before content later shape bound =>
      behind (fragment :: before) content later (by rw [shape]; rfl) bound
    cases fragment with
    | text content =>
      rw [isolated, inner, Bool.and_true]
      cases bound : isLineBound content with
      | false => rfl
      | true =>
        obtain none | broken := behind [] content rest rfl bound
        · simp [none]
        · simp [broken]
    | space | tab | newline => exact inner

theorem isolated_layOut (settings : Settings) {source : String} {program : List Stmt}
    (parsed : parse source = .ok program) (sheltered : sheltersRemarks program = true) :
    isolated (layOut settings program).buffer.reverse = true := by
  let page := after (stmts program) (Page.blank settings)
  let body := page.buffer.dropWhile Fragment.isBlank
  have laid : (layOut settings program).buffer =
      List.replicate page.settings.newlinesAtEnd .newline ++ body := rfl
  have whole : Buffer.intact body = true := by
    have entry : Entry true true false program (Page.blank settings) :=
      ⟨.inl .nil, fun _ => rfl, (absurd · Bool.false_ne_true)⟩
    have intact : Buffer.intact page.buffer = true := (sheltersAll program sheltered entry).1
    have split : page.buffer.takeWhile Fragment.isBlank ++ body = page.buffer :=
      List.takeWhile_append_dropWhile
    rw [← split] at intact
    exact Buffer.intact_of_append intact
  have neat : Buffer.Neat settings.blank body := by
    have quiet := (quiet_stmts shown_of_mem_scan (parse_formed parsed)).loose
    obtain ⟨tidy, _, _, under⟩ := quiet.passes tidy_blank trivial settings
    have passed : page.Passed settings := ⟨_, tidy, under⟩
    exact passed.neat.dropWhile _
  apply isolated_of_behind
  intro before content later shape bound
  have reversed : List.replicate page.settings.newlinesAtEnd .newline ++ body =
      later.reverse ++ .text content :: before.reverse := by
    rw [← laid, ← List.reverse_reverse (layOut settings program).buffer, shape]
    simp
  obtain ⟨inner, back, inside⟩ := Buffer.split_breaks reversed
  have forth : later = inner.reverse ++ List.replicate page.settings.newlinesAtEnd .newline := by
    rw [← List.reverse_reverse later, back]
    simp
  rw [forth]
  obtain rfl | rfl | ⟨rest, rfl⟩ := neat.behind_lineBound whole inside bound
  · cases page.settings.newlinesAtEnd with
    | zero => exact .inl rfl
    | succ count => exact .inr rfl
  · have shown := List.head?_dropWhile_not Fragment.isBlank page.buffer
    rw [show page.buffer.dropWhile Fragment.isBlank = _ from inside] at shown
    cases shown
  · exact .inr (by simp)

/-- In the layout of a program that shelters its remarks, every comment that runs to the end of its line,
every region mark and every macro is the last fragment or is followed by a line break. -/
theorem layOut_isolated (settings : Settings) {source : String} {program : List Stmt}
    (parsed : parse source = .ok program) (sheltered : sheltersRemarks program = true) :
    isolated (layOut settings program).buffer.reverse = true ∧
      ∀ token ∈ scan source, token.kind.takesLine = true → isLineBound token.lexeme = true :=
  ⟨isolated_layOut settings parsed sheltered, fun _ => isLineBound_of_takesLine⟩

/-- A region mark, a macro, and comments in a call, behind a statement and at the end of a block. -/
theorem layOut_isolated_region : ∃ program,
    parse "#region r\nf( // x\n1 // y\n);\n#macro M 1\nif a \x7b\nb; // z\n\x7d" = .ok program ∧
      (layOut {} program).buffer.ink.filter isLineBound = ["#region r", "// x", "// y", "#macro M 1", "// z"] ∧
      isolated (layOut {} program).buffer.reverse = true := by
  have checked : ∃ program,
      parse "#region r\nf( // x\n1 // y\n);\n#macro M 1\nif a \x7b\nb; // z\n\x7d" = .ok program ∧
        sheltersRemarks program = true ∧ (layOut {} program).buffer.ink.filter isLineBound =
          ["#region r", "// x", "// y", "#macro M 1", "// z"] :=
    exists_ok (by decide +kernel)
  obtain ⟨program, parsed, sheltered, bound⟩ := checked
  exact ⟨program, parsed, bound, (layOut_isolated {} parsed sheltered).1⟩

/-- The word `else` is moved up behind a comment, which takes it in. -/
theorem comment_not_isolated : ∃ program, parse "if (a) b() // c\nelse d()" = .ok program ∧
    isolated (layOut {} program).buffer.reverse = false :=
  exists_ok (by decide +kernel)

end GmlLayout
