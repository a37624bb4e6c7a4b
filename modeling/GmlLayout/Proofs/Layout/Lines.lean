import GmlLayout.Proofs.Layout.NormalForm

/-!
The lines of a formatted text. A layout divides a program into lines, each at some depth, and the settings
only say how a depth is written: the same lines come out under all of them.
-/

namespace GmlLayout

/-- A line of a formatted text: the depth it is indented to and what stands behind the margin. -/
structure Line where
  depth : Nat
  content : List Fragment
  oneLine : .newline ∉ content
  noMargin : ∀ first later, content = first :: later → ¬ first.Indents

namespace Line

def text (line : Line) : String :=
  String.join (line.content.map Fragment.toText)

def bare (depth : Nat) : Line :=
  ⟨depth, [], List.not_mem_nil, fun _ _ shape => by cases shape⟩

/-- The line with one more fragment at its end; a blank needs a text in front of it. -/
def push (line : Line) (fragment : Fragment) (visible : fragment ≠ .newline)
    (behindText : line.content = [] → ¬ fragment.Indents) : Line where
  depth := line.depth
  content := line.content ++ [fragment]
  oneLine member := by
    obtain member | member := List.mem_append.mp member
    · exact line.oneLine member
    · exact visible (List.mem_singleton.mp member).symm
  noMargin first later shape := by
    cases found : line.content with
    | nil =>
      rw [found] at shape
      cases shape
      exact behindText found
    | cons one others =>
      rw [found] at shape
      cases shape
      exact line.noMargin _ _ found

end Line

def spell (fragments : List Fragment) : String :=
  String.join (fragments.map Fragment.toText)

theorem spell_append (first rest : List Fragment) : spell (first ++ rest) = spell first ++ spell rest := by
  simp [spell, String.join_append]

theorem spell_flatten (pieces : List (List Fragment)) : spell pieces.flatten = String.join (pieces.map spell) := by
  induction pieces with
  | nil => rfl
  | cons piece pieces ih => rw [List.flatten_cons, spell_append, ih, List.map_cons, String.join_cons]

theorem Buffer.toText_append (later buffer : Buffer) :
    toText (later ++ buffer) = buffer.toText ++ spell later.reverse := by
  simp [toText, spell, String.join_append]

def Settings.unitText (settings : Settings) : String :=
  if settings.useSpaces then String.join (List.replicate settings.spaceSize " ") else "\t"

theorem spell_unit (settings : Settings) : spell settings.unit = settings.unitText := by
  unfold Settings.unit Settings.unitText spell
  split
  · simp [Fragment.toText]
  · rfl

namespace Line

variable {settings : Settings} {line : Line}

/-- The fragments of a line as the settings want them: its margin and its content. -/
def fragments (settings : Settings) (line : Line) : List Fragment :=
  (List.replicate line.depth settings.unit).flatten ++ line.content

def render (settings : Settings) (line : Line) : String :=
  String.join (List.replicate line.depth settings.unitText) ++ line.text

theorem spell_fragments : spell (line.fragments settings) = line.render settings := by
  rw [fragments, spell_append, spell_flatten, List.map_replicate, spell_unit]
  rfl

theorem fragments_push {fragment : Fragment} (visible : fragment ≠ .newline)
    (behindText : line.content = [] → ¬ fragment.Indents) :
    (line.push fragment visible behindText).fragments settings = line.fragments settings ++ [fragment] :=
  (List.append_assoc _ _ _).symm

theorem fragments_bare_succ (blank : line.content = []) :
    (bare (line.depth + 1)).fragments settings = line.fragments settings ++ settings.unit := by
  simp [fragments, bare, blank, List.replicate_succ', List.flatten_append]

end Line

theorem intercalate_snoc {α : Type} (separator : List α) (pieces : List (List α)) (last : List α) :
    separator.intercalate (pieces ++ [last]) = (pieces.map (· ++ separator)).flatten ++ last := by
  induction pieces with
  | nil => simp
  | cons first pieces ih =>
    have more : pieces ++ [last] ≠ [] := by simp
    obtain ⟨second, others, shape⟩ := List.exists_cons_of_ne_nil more
    rw [List.cons_append, shape, List.intercalate_cons_cons, ← shape, ih]
    simp [List.append_assoc]

theorem spell_intercalate (pieces : List (List Fragment)) :
    spell ([Fragment.newline].intercalate pieces) = "\n".intercalate (pieces.map spell) := by
  induction pieces with
  | nil => rfl
  | cons first pieces ih =>
    cases pieces with
    | nil => simp
    | cons second others =>
      have more : (second :: others).map spell ≠ [] := by simp
      rw [List.intercalate_cons_cons, spell_append, spell_append, ih]
      exact (String.intercalate_cons_of_ne_nil more).symm

theorem reverse_unit (settings : Settings) : settings.unit.reverse = settings.unit := by
  unfold Settings.unit
  split
  · exact List.reverse_replicate
  · rfl

namespace Buffer

/-- A buffer in normal form is divided into lines; the last of them has nothing behind its margin exactly at
the beginning of the text and below a line break. -/
theorem Neat.exists_lines {buffer : Buffer} (neat : Neat .tab buffer) :
    ∃ (earlier : List Line) (last : Line), (buffer = [] → earlier = []) ∧
      (last.content = [] ↔ buffer = [] ∨ 0 < breaks buffer) ∧
      ∀ settings : Settings, (buffer.spread settings.unit).reverse =
        [.newline].intercalate ((earlier ++ [last]).map (Line.fragments settings)) := by
  simp only [List.map_append, List.map_singleton, intercalate_snoc]
  induction neat with
  | nil => exact ⟨[], .bare 0, fun _ => rfl, by simp [Line.bare], fun settings => rfl⟩
  | text content neat ih =>
    obtain ⟨earlier, last, _, _, written⟩ := ih
    have shown : ¬ (Fragment.text content).Indents := by simp [Fragment.Indents]
    refine ⟨earlier, last.push (.text content) (by simp) fun _ => shown, by simp, ?_, fun settings => ?_⟩
    · simp [Line.push, breaks]
    · rw [spread_text, List.reverse_cons, written, Line.fragments_push, List.append_assoc]
  | space neat ih =>
    obtain ⟨earlier, last, _, blank, written⟩ := ih
    have shown : last.content ≠ [] := by simp [blank, breaks]
    refine ⟨earlier, last.push .space (by simp) fun none => absurd none shown, by simp, ?_, fun settings => ?_⟩
    · simp [Line.push, breaks]
    · rw [spread_space, List.reverse_cons, written, Line.fragments_push, List.append_assoc]
  | newline neat breakable few ih =>
    obtain ⟨earlier, last, _, _, written⟩ := ih
    refine ⟨earlier ++ [last], .bare 0, by simp, by simp [Line.bare, breaks], fun settings => ?_⟩
    rw [spread_newline, List.reverse_cons, written]
    simp [Line.fragments, Line.bare]
  | @margin fragment buffer isTab indents neat below ih =>
    obtain ⟨earlier, last, _, blank, written⟩ := ih
    have bare : last.content = [] := blank.mpr (.inr below)
    have counted := breaks_of_indents indents buffer
    subst isTab
    refine ⟨earlier, .bare (last.depth + 1), by simp, by simp [Line.bare, counted, below], fun settings => ?_⟩
    rw [spread_tab, List.reverse_append, reverse_unit, written, Line.fragments_bare_succ bare, List.append_assoc]

end Buffer

/-- A source has lines that do not depend on the settings. What is laid out is each of them, behind the margin
of its depth, with line breaks between them; as many line breaks as the settings ask for follow the last line,
which is not blank unless there is no other. -/
theorem format_lines {source : String} {program : List Stmt} (parsed : parse source = .ok program) :
    ∃ lines : List Line, (∀ earlier last, lines = earlier ++ [last] → last.content = [] → earlier = []) ∧
      ∀ settings : Settings,
        (layOut settings program).buffer.reverse =
          [.newline].intercalate (lines.map (Line.fragments settings))
            ++ List.replicate settings.newlinesAtEnd .newline ∧
        format settings source =
          .ok ("\n".intercalate (lines.map (Line.render settings))
            ++ String.join (List.replicate settings.newlinesAtEnd "\n")) := by
  obtain ⟨body, neat, unbroken, laid⟩ := layOut_spread parsed
  obtain ⟨earlier, last, first, blank, written⟩ := neat.exists_lines
  refine ⟨earlier ++ [last], fun others lastLine shape none => ?_, fun settings => ?_⟩
  · obtain ⟨rfl, same⟩ := List.append_inj' shape rfl
    cases same
    obtain begins | below := blank.mp none
    · exact first begins
    · rw [unbroken] at below
      cases below
  · have fragments : (layOut settings program).buffer.reverse =
        [.newline].intercalate ((earlier ++ [last]).map (Line.fragments settings))
          ++ List.replicate settings.newlinesAtEnd .newline := by
      rw [laid, List.reverse_append, written, List.reverse_replicate]
    refine ⟨fragments, ?_⟩
    have output : (layOut settings program).output = "\n".intercalate ((earlier ++ [last]).map
        (Line.render settings)) ++ String.join (List.replicate settings.newlinesAtEnd "\n") := by
      have same : spell ∘ Line.fragments settings = Line.render settings :=
        funext fun line => Line.spell_fragments
      have spelled : (layOut settings program).output = spell (layOut settings program).buffer.reverse := rfl
      rw [spelled, fragments, spell_append, spell_intercalate, List.map_map, same,
        spell, List.map_replicate]
      rfl
    rw [format, parsed]
    exact congrArg Except.ok output

/-- The lines of a block, under spaces and under tabs. The blank line in it has no content. -/
theorem format_lines_block : ∃ program, parse "if a  \x7b\n b;\n\n\n\n c\n\x7d" = .ok program ∧
    ∃ lines : List Line,
      (layOut { newlinesAtEnd := 0 } program).buffer.reverse =
        [.newline].intercalate (lines.map (Line.fragments { newlinesAtEnd := 0 })) ∧
      "\n".intercalate (lines.map (Line.render {})) = "if a \x7b\n    b;\n    \n    c;\n\x7d" ∧
      "\n".intercalate (lines.map (Line.render { useSpaces := false })) = "if a \x7b\n\tb;\n\t\n\tc;\n\x7d" := by
  have parses : ∃ program, parse "if a  \x7b\n b;\n\n\n\n c\n\x7d" = .ok program ∧ True :=
    exists_ok (by decide +kernel)
  obtain ⟨program, parsed, _⟩ := parses
  obtain ⟨lines, _, same⟩ := format_lines parsed
  have unended (settings : Settings) (none : settings.newlinesAtEnd = 0) {text : String}
      (formatted : ∃ output, format settings "if a  \x7b\n b;\n\n\n\n c\n\x7d" = .ok output ∧ output = text) :
      "\n".intercalate (lines.map (Line.render settings)) = text := by
    obtain ⟨output, formatted, rfl⟩ := formatted
    have whole := (same settings).2.symm.trans formatted
    rw [none] at whole
    simpa using whole
  refine ⟨program, parsed, lines, ?_, unended { newlinesAtEnd := 0 } rfl (exists_ok (by decide +kernel)),
    unended { useSpaces := false, newlinesAtEnd := 0 } rfl (exists_ok (by decide +kernel))⟩
  simpa using (same { newlinesAtEnd := 0 }).1

end GmlLayout
