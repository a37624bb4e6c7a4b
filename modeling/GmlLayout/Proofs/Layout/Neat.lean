import GmlLayout.Layout.Page

/-!
The normal form of the blanks in a buffer. A text stands first; a space stands between two texts or at
the end of one; behind a line break comes the margin of the next line; no run of blanks has more than two
line breaks, and a line that ends has no blank at its end unless it has nothing else. Looking back is then
counting: it depends on the line breaks among the last blanks only, and not on how wide a margin is.
-/

namespace GmlLayout

namespace Fragment

def Indents (fragment : Fragment) : Prop :=
  fragment = .space ∨ fragment = .tab

theorem Indents.isBlank {fragment : Fragment} (indents : fragment.Indents) : fragment.isBlank = true := by
  obtain rfl | rfl := indents <;> rfl

theorem ofText_eq_text {content : String} (visible : content ≠ " " ∧ content ≠ "\t" ∧ content ≠ "\n") :
    ofText content = .text content := by
  simp [ofText, visible]

end Fragment

namespace Buffer

def breaks : Buffer → Nat
  | [] => 0
  | .newline :: buffer => breaks buffer + 1
  | .space :: buffer => breaks buffer
  | .tab :: buffer => breaks buffer
  | .text _ :: _ => 0

theorem breaks_of_indents {fragment : Fragment} (indents : fragment.Indents) (buffer : Buffer) :
    breaks (fragment :: buffer) = breaks buffer := by
  obtain rfl | rfl := indents <;> rfl

theorem breaks_dropWhile (buffer : Buffer) : breaks (buffer.dropWhile Fragment.isBlank) = 0 := by
  induction buffer with
  | nil => rfl
  | cons fragment buffer ih => cases fragment <;> simp [List.dropWhile_cons, Fragment.isBlank, breaks, ih]

theorem breaks_dropLine_of_breaks {buffer : Buffer} (below : 0 < breaks buffer) :
    breaks (dropLine buffer) = breaks buffer := by
  fun_induction dropLine buffer with
  | case1 => rfl
  | case2 first => rfl
  | case3 before rest => rfl
  | case4 last before rest other ih =>
    cases last with
    | newline => exact absurd rfl other
    | space | tab => exact ih below
    | text content => exact absurd below (by simp [breaks])

/-- A line break may come next: the last line is blank, or it ends in a text. -/
def Breakable (buffer : Buffer) : Prop :=
  0 < breaks buffer ∨ ∃ content earlier, buffer = .text content :: earlier

inductive Neat (blank : Fragment) : Buffer → Prop where
  | nil : Neat blank []
  | text {buffer : Buffer} (content : String) (neat : Neat blank buffer) :
      Neat blank (.text content :: buffer)
  | space {content : String} {buffer : Buffer} (neat : Neat blank (.text content :: buffer)) :
      Neat blank (.space :: .text content :: buffer)
  | newline {buffer : Buffer} (neat : Neat blank buffer) (breakable : Breakable buffer)
      (few : breaks buffer ≤ 1) : Neat blank (.newline :: buffer)
  | margin {fragment : Fragment} {buffer : Buffer} (same : fragment = blank)
      (indents : fragment.Indents) (neat : Neat blank buffer) (below : 0 < breaks buffer) :
      Neat blank (fragment :: buffer)

theorem head?_isBlank_of_breaks {buffer : Buffer} (below : 0 < breaks buffer) :
    buffer.head?.any Fragment.isBlank = true := by
  cases buffer with
  | nil => exact absurd below (by decide)
  | cons fragment buffer =>
    cases fragment with
    | text content => exact absurd below (by simp [breaks])
    | _ => rfl

theorem newline_mem_of_breaks {buffer : Buffer} (below : 0 < breaks buffer) : .newline ∈ buffer := by
  induction buffer with
  | nil => exact absurd below (by decide)
  | cons fragment buffer ih =>
    cases fragment with
    | newline => exact List.mem_cons_self
    | space | tab => exact List.mem_cons_of_mem _ (ih below)
    | text content => exact absurd below (by simp [breaks])

theorem Breakable.ne_nil {buffer : Buffer} (breakable : Breakable buffer) : buffer ≠ [] := by
  rintro rfl
  obtain below | ⟨_, _, shape⟩ := breakable
  · exact absurd below (by decide)
  · cases shape

theorem ne_nil_of_breaks {buffer : Buffer} (below : 0 < breaks buffer) : buffer ≠ [] :=
  Breakable.ne_nil (.inl below)

namespace Neat

variable {blank : Fragment} {buffer : Buffer}

theorem tail {fragment : Fragment} (neat : Neat blank (fragment :: buffer)) : Neat blank buffer := by
  cases neat with
  | text content neat => exact neat
  | space neat => exact neat
  | newline neat breakable few => exact neat
  | margin same indents neat below => exact neat

theorem breaks_le_two (neat : Neat blank buffer) : breaks buffer ≤ 2 := by
  induction neat with
  | nil => exact Nat.zero_le 2
  | text content neat ih => exact Nat.zero_le 2
  | space neat ih => exact ih
  | newline neat breakable few ih => exact Nat.succ_le_succ few
  | margin same indents neat below ih =>
    rw [breaks_of_indents indents]
    exact ih

theorem of_append {later : Buffer} (neat : Neat blank (later ++ buffer)) : Neat blank buffer := by
  induction later with
  | nil => exact neat
  | cons fragment later ih => exact ih neat.tail

theorem dropWhile (neat : Neat blank buffer) (drops : Fragment → Bool) :
    Neat blank (buffer.dropWhile drops) := by
  rw [← List.takeWhile_append_dropWhile (p := drops) (l := buffer)] at neat
  exact neat.of_append

theorem dropBlanks_ne_nil (neat : Neat blank buffer) (begun : buffer ≠ []) :
    buffer.dropWhile Fragment.isBlank ≠ [] := by
  induction neat with
  | nil => exact begun
  | text content neat ih => exact List.cons_ne_nil _ _
  | space neat ih => exact List.cons_ne_nil _ _
  | newline neat breakable few ih => exact ih breakable.ne_nil
  | margin same indents neat below ih =>
    rw [List.dropWhile_cons_of_pos indents.isBlank]
    exact ih (ne_nil_of_breaks below)

theorem onBlankLine_iff (neat : Neat blank buffer) :
    onBlankLine buffer = true ↔ buffer = [] ∨ 0 < breaks buffer := by
  induction neat with
  | nil => simp [onBlankLine]
  | @text buffer content neat ih => cases buffer <;> simp [onBlankLine, breaks]
  | @space content buffer neat ih => cases buffer <;> simp [onBlankLine, breaks]
  | @newline buffer neat breakable few ih =>
    obtain ⟨last, earlier, rfl⟩ := List.exists_cons_of_ne_nil breakable.ne_nil
    simp [onBlankLine, breaks]
  | @margin fragment buffer same indents neat below ih =>
    obtain ⟨last, earlier, rfl⟩ := List.exists_cons_of_ne_nil (ne_nil_of_breaks below)
    obtain rfl | rfl := indents <;> simpa [onBlankLine, breaks] using ih

theorem blankLineAbove_iff (neat : Neat blank buffer) (broken : Bool) :
    blankLineAbove broken buffer = true ↔ (if broken then 1 else 2) ≤ breaks buffer := by
  induction neat generalizing broken with
  | nil => cases broken <;> simp [blankLineAbove, breaks]
  | @text buffer content neat ih => cases buffer <;> cases broken <;> simp [blankLineAbove, breaks]
  | @space content buffer neat ih => cases buffer <;> cases broken <;> simp [blankLineAbove, breaks]
  | @newline buffer neat breakable few ih =>
    obtain ⟨last, earlier, rfl⟩ := List.exists_cons_of_ne_nil breakable.ne_nil
    cases broken with
    | true => simp [blankLineAbove, breaks]
    | false => simp [blankLineAbove, breaks, ih]
  | @margin fragment buffer same indents neat below ih =>
    obtain ⟨last, earlier, rfl⟩ := List.exists_cons_of_ne_nil (ne_nil_of_breaks below)
    obtain rfl | rfl := indents <;> simpa [blankLineAbove, breaks] using ih broken

theorem dropBlanks_eq (neat : Neat blank buffer) :
    dropBlanks buffer = (breaks buffer, buffer.dropWhile Fragment.isBlank) := by
  induction neat with
  | nil => rfl
  | @text buffer content neat ih => cases buffer <;> rfl
  | @space content buffer neat ih => cases buffer <;> rfl
  | @newline buffer neat breakable few ih =>
    obtain ⟨last, earlier, rfl⟩ := List.exists_cons_of_ne_nil breakable.ne_nil
    simp [dropBlanks, breaks, Fragment.isBlank, ih, List.dropWhile_cons]
  | @margin fragment buffer same indents neat below ih =>
    obtain ⟨last, earlier, rfl⟩ := List.exists_cons_of_ne_nil (ne_nil_of_breaks below)
    obtain rfl | rfl := indents <;>
      simp [dropBlanks, breaks, Fragment.isBlank, ih, List.dropWhile_cons]

theorem dropSpace_of_breaks (neat : Neat blank buffer) (below : 0 < breaks buffer) :
    dropSpace buffer = buffer := by
  unfold dropSpace
  split
  · rw [if_pos (neat.onBlankLine_iff.mpr (.inr below))]
  · rfl

theorem dropSpace_space {content : String} (neat : Neat blank (.space :: .text content :: buffer)) :
    dropSpace (.space :: .text content :: buffer) = .text content :: buffer := by
  have shown : ¬ onBlankLine (.space :: .text content :: buffer) = true := by
    rw [neat.onBlankLine_iff]
    simp [breaks]
  exact if_neg shown

/-- Dropping a space leaves the end of a text, or a line break at the end of a blank line. -/
theorem dropSpace_cases (neat : Neat blank buffer) :
    (∃ content earlier, buffer = .space :: .text content :: earlier ∧
      dropSpace buffer = .text content :: earlier) ∨
    dropSpace buffer = buffer ∧ (buffer = [] ∨ Breakable buffer) := by
  cases neat with
  | nil => exact .inr ⟨rfl, .inl rfl⟩
  | text content neat => exact .inr ⟨rfl, .inr (.inr ⟨_, _, rfl⟩)⟩
  | space neat => exact .inl ⟨_, _, rfl, dropSpace_space neat.space⟩
  | newline neat breakable few => exact .inr ⟨rfl, .inr (.inl (Nat.succ_pos _))⟩
  | @margin fragment earlier same indents neat below =>
    have counted := breaks_of_indents indents earlier
    have neat := Neat.margin same indents neat below
    rw [← counted] at below
    exact .inr ⟨neat.dropSpace_of_breaks below, .inr (.inl below)⟩

theorem dropSpace (neat : Neat blank buffer) : Neat blank (Buffer.dropSpace buffer) := by
  obtain ⟨content, earlier, shape, dropped⟩ | ⟨dropped, _⟩ := neat.dropSpace_cases
  · rw [dropped]
    rw [shape] at neat
    exact neat.tail
  · rw [dropped]
    exact neat

theorem breakable_dropSpace (neat : Neat blank buffer) (begun : buffer ≠ []) :
    Breakable (Buffer.dropSpace buffer) := by
  obtain ⟨content, earlier, _, dropped⟩ | ⟨dropped, none | breakable⟩ := neat.dropSpace_cases
  · exact .inr ⟨content, earlier, dropped⟩
  · exact absurd none begun
  · rw [dropped]
    exact breakable

theorem breaks_dropSpace (neat : Neat blank buffer) : breaks (Buffer.dropSpace buffer) = breaks buffer := by
  obtain ⟨content, earlier, shape, dropped⟩ | ⟨dropped, _⟩ := neat.dropSpace_cases
  · rw [dropped, shape]
    rfl
  · rw [dropped]

theorem append_margin (neat : Neat blank buffer) (below : 0 < breaks buffer) {margin : Buffer}
    (same : ∀ fragment ∈ margin, fragment = blank) (indents : blank.Indents) :
    Neat blank (margin ++ buffer) ∧ breaks (margin ++ buffer) = breaks buffer := by
  induction margin with
  | nil => exact ⟨neat, rfl⟩
  | cons fragment margin ih =>
    have first : fragment = blank := same fragment List.mem_cons_self
    obtain ⟨laid, counted⟩ := ih fun other member => same other (List.mem_cons_of_mem _ member)
    subst first
    rw [← counted] at below
    exact ⟨.margin rfl indents laid below, by rw [List.cons_append, breaks_of_indents indents, counted]⟩

/-- A new line may be started in a buffer that has begun, unless there is a blank line already. -/
theorem push_newline (neat : Neat blank buffer) (begun : buffer ≠ []) (few : breaks buffer ≤ 1) :
    Neat blank (.newline :: Buffer.dropSpace buffer) :=
  .newline neat.dropSpace (neat.breakable_dropSpace begun) (by rw [neat.breaks_dropSpace]; exact few)

theorem breaks_dropLine (neat : Neat blank buffer) (broken : .newline ∈ buffer) :
    0 < breaks (dropLine buffer) := by
  fun_induction dropLine buffer with
  | case1 => cases broken
  | case2 first =>
    have same : .newline = first := List.mem_singleton.mp broken
    subst same
    cases neat with
    | newline neat breakable few => exact absurd rfl breakable.ne_nil
    | margin same indents neat below => exact absurd below (by decide)
  | case3 before rest => exact Nat.succ_pos _
  | case4 last before rest other ih =>
    refine ih neat.tail ?_
    obtain same | member := List.mem_cons.mp broken
    · exact absurd same.symm other
    · exact member

end Neat

theorem dropLine_suffix (buffer : Buffer) : ∃ later, later ++ dropLine buffer = buffer := by
  fun_induction dropLine buffer with
  | case1 => exact ⟨[], rfl⟩
  | case2 first => exact ⟨[], rfl⟩
  | case3 before rest => exact ⟨[], rfl⟩
  | case4 last before rest other ih =>
    obtain ⟨later, whole⟩ := ih
    exact ⟨last :: later, by rw [List.cons_append, whole]⟩

theorem dropLine_ne_nil {buffer : Buffer} (begun : buffer ≠ []) : dropLine buffer ≠ [] := by
  fun_induction dropLine buffer with
  | case1 => exact absurd rfl begun
  | case2 first => exact begun
  | case3 before rest => exact begun
  | case4 last before rest other ih => exact ih (List.cons_ne_nil _ _)

theorem Neat.dropLine {blank : Fragment} {buffer : Buffer} (neat : Neat blank buffer) :
    Neat blank (Buffer.dropLine buffer) := by
  obtain ⟨later, whole⟩ := dropLine_suffix buffer
  rw [← whole] at neat
  exact neat.of_append

section

variable {code : Buffer} (ends : code = [] ∨ ∃ content earlier, code = .text content :: earlier)

include ends

theorem breaks_insert (later : Buffer) (content : String) :
    breaks (later ++ .text content :: code) = breaks (later ++ code) := by
  induction later with
  | nil =>
    obtain rfl | ⟨_, _, rfl⟩ := ends
    · rfl
    · rfl
  | cons fragment later ih => cases fragment <;> simp [breaks, ih]

theorem Neat.insert {blank : Fragment} {later : Buffer} (neat : Neat blank (later ++ code))
    (content : String) : Neat blank (later ++ .text content :: code) := by
  induction later with
  | nil => exact .text content neat
  | cons fragment later ih =>
    have inner := ih neat.tail
    have counted := breaks_insert ends later content
    rw [List.cons_append] at neat ⊢
    generalize whole : later ++ code = buffer at neat
    rw [whole] at counted
    cases neat with
    | text other neat => exact .text other inner
    | space neat =>
      cases later with
      | nil => exact .space inner
      | cons other later =>
        cases whole
        exact .space inner
    | newline neat breakable few =>
      refine .newline inner ?_ (by rw [counted]; exact few)
      obtain below | ⟨other, earlier, shape⟩ := breakable
      · exact .inl (by rw [counted]; exact below)
      · right
        cases later with
        | nil => exact ⟨_, _, rfl⟩
        | cons first later =>
          rw [shape] at whole
          cases whole
          exact ⟨_, _, rfl⟩
    | margin same indents neat below => exact .margin same indents inner (by rw [counted]; exact below)

end

def Settled (buffer : Buffer) : Prop :=
  .newline ∈ buffer.dropWhile Fragment.isBlank

namespace Settled

variable {buffer : Buffer}

theorem newline_mem (settled : Settled buffer) : .newline ∈ buffer :=
  (List.dropWhile_sublist Fragment.isBlank).subset settled

theorem push (settled : Settled buffer) (fragment : Fragment) : Settled (fragment :: buffer) := by
  unfold Settled
  rw [List.dropWhile_cons]
  split
  · exact settled
  · exact List.mem_cons_of_mem _ settled.newline_mem

theorem append (settled : Settled buffer) (later : Buffer) : Settled (later ++ buffer) := by
  induction later with
  | nil => exact settled
  | cons fragment later ih => exact ih.push fragment

theorem of_text {content : String} (broken : .newline ∈ buffer) : Settled (.text content :: buffer) :=
  List.mem_cons_of_mem _ broken

theorem of_append {later : Buffer} (settled : Settled (later ++ buffer))
    (blank : ∀ fragment ∈ later, fragment.isBlank = true) : Settled buffer := by
  unfold Settled at settled
  rwa [List.dropWhile_append_of_pos blank] at settled

theorem dropBlanks (settled : Settled buffer) : Settled (buffer.dropWhile Fragment.isBlank) := by
  rw [← List.takeWhile_append_dropWhile (p := Fragment.isBlank) (l := buffer)] at settled
  exact settled.of_append (List.all_eq_true.mp List.all_takeWhile)

theorem dropSpace (settled : Settled buffer) : Settled (Buffer.dropSpace buffer) := by
  unfold Buffer.dropSpace
  split
  · split
    · exact settled
    · exact settled
  · exact settled

theorem dropLine (settled : Settled buffer) (below : 0 < breaks buffer) :
    Settled (Buffer.dropLine buffer) := by
  fun_induction Buffer.dropLine buffer with
  | case1 => exact settled
  | case2 first => exact settled
  | case3 before rest => exact settled
  | case4 last before rest other ih =>
    cases last with
    | newline => exact absurd rfl other
    | space | tab => exact ih settled below
    | text content => exact absurd below (by simp [breaks])

theorem insert {later code : Buffer} (settled : Settled (later ++ code)) (content : String) :
    Settled (later ++ .text content :: code) := by
  induction later with
  | nil => exact settled.push _
  | cons fragment later ih =>
    unfold Settled at settled ih ⊢
    rw [List.cons_append, List.dropWhile_cons] at settled ⊢
    split at settled
    · rename_i blank
      rw [if_pos blank]
      exact ih settled
    · rename_i shown
      rw [if_neg shown]
      simp only [List.mem_cons, List.mem_append] at settled ⊢
      exact settled.imp_right (Or.imp_right .inr)

end Settled

end Buffer

def Fragment.spread (unit : List Fragment) : Fragment → List Fragment
  | .tab => unit
  | .space => [.space]
  | .newline => [.newline]
  | .text content => [.text content]

namespace Buffer

def spread (unit : List Fragment) (buffer : Buffer) : Buffer :=
  buffer.flatMap (Fragment.spread unit)

section

variable {unit : List Fragment}

@[simp] theorem spread_nil : spread unit [] = [] := rfl

@[simp] theorem spread_tab (buffer : Buffer) : spread unit (.tab :: buffer) = unit ++ spread unit buffer :=
  rfl

@[simp] theorem spread_space (buffer : Buffer) :
    spread unit (.space :: buffer) = .space :: spread unit buffer :=
  rfl

@[simp] theorem spread_newline (buffer : Buffer) :
    spread unit (.newline :: buffer) = .newline :: spread unit buffer :=
  rfl

@[simp] theorem spread_text (content : String) (buffer : Buffer) :
    spread unit (.text content :: buffer) = .text content :: spread unit buffer :=
  rfl

theorem spread_append (later buffer : Buffer) :
    spread unit (later ++ buffer) = spread unit later ++ spread unit buffer :=
  List.flatMap_append

theorem takeWhile_spread {inClass : Fragment → Bool} (tab : inClass .tab = true)
    (units : ∀ fragment ∈ unit, inClass fragment = true) (buffer : Buffer) :
    (spread unit buffer).takeWhile inClass = spread unit (buffer.takeWhile inClass) ∧
      (spread unit buffer).dropWhile inClass = spread unit (buffer.dropWhile inClass) := by
  induction buffer with
  | nil => exact ⟨rfl, rfl⟩
  | cons fragment buffer ih =>
    cases fragment with
    | tab =>
      rw [spread_tab, List.takeWhile_append_of_pos units, List.dropWhile_append_of_pos units,
        List.takeWhile_cons_of_pos tab, List.dropWhile_cons_of_pos tab, spread_tab, ih.1, ih.2]
      exact ⟨rfl, rfl⟩
    | space | newline | text =>
      simp only [spread_space, spread_newline, spread_text, List.takeWhile_cons, List.dropWhile_cons]
      split <;> simp [ih]

end

section

variable {blank : Fragment} {unit : List Fragment} (same : ∀ fragment ∈ unit, fragment = blank)
  (indents : blank.Indents) {buffer : Buffer}

include same indents

theorem breaks_unit (buffer : Buffer) : breaks (unit ++ buffer) = breaks buffer := by
  induction unit with
  | nil => rfl
  | cons fragment unit ih =>
    have first : fragment = blank := same fragment List.mem_cons_self
    rw [List.cons_append, first, breaks_of_indents indents,
      ih fun other member => same other (List.mem_cons_of_mem _ member)]

theorem breaks_spread (buffer : Buffer) : breaks (spread unit buffer) = breaks buffer := by
  induction buffer with
  | nil => rfl
  | cons fragment buffer ih =>
    cases fragment with
    | tab => rw [spread_tab, breaks_unit same indents, ih]; rfl
    | space | newline | text => simp [breaks, ih]

theorem Neat.spread (neat : Neat .tab buffer) : Neat blank (spread unit buffer) := by
  induction neat with
  | nil => exact .nil
  | text content neat ih => exact .text content ih
  | space neat ih => exact .space ih
  | @newline buffer neat breakable few ih =>
    have counted := breaks_spread same indents buffer
    rw [spread_newline]
    refine .newline ih ?_ (by rw [counted]; exact few)
    obtain below | ⟨content, earlier, rfl⟩ := breakable
    · exact .inl (by rw [counted]; exact below)
    · exact .inr ⟨content, _, rfl⟩
  | @margin fragment buffer isTab _ neat below ih =>
    subst isTab
    have counted := breaks_spread same indents buffer
    exact (ih.append_margin (by rw [counted]; exact below) same indents).1

theorem spread_ne_nil (neat : Neat .tab buffer) (begun : buffer ≠ []) : Buffer.spread unit buffer ≠ [] := by
  cases neat with
  | nil => exact absurd rfl begun
  | text content neat => exact List.cons_ne_nil _ _
  | space neat => exact List.cons_ne_nil _ _
  | newline neat breakable few => exact List.cons_ne_nil _ _
  | @margin fragment buffer isTab _ neat below =>
    subst isTab
    have below' : 0 < breaks (Buffer.spread unit (.tab :: buffer)) := by
      rw [breaks_spread same indents]
      exact below
    exact ne_nil_of_breaks below'

theorem onBlankLine_spread (neat : Neat .tab buffer) :
    onBlankLine (Buffer.spread unit buffer) = onBlankLine buffer := by
  have empty : Buffer.spread unit buffer = [] ↔ buffer = [] := by
    refine ⟨fun none => ?_, fun none => by rw [none]; rfl⟩
    exact Classical.byContradiction fun begun => spread_ne_nil same indents neat begun none
  rw [Bool.eq_iff_iff, (neat.spread same indents).onBlankLine_iff, neat.onBlankLine_iff,
    breaks_spread same indents, empty]

theorem blankLineAbove_spread (neat : Neat .tab buffer) (broken : Bool) :
    blankLineAbove broken (Buffer.spread unit buffer) = blankLineAbove broken buffer := by
  rw [Bool.eq_iff_iff, (neat.spread same indents).blankLineAbove_iff, neat.blankLineAbove_iff,
    breaks_spread same indents]

theorem dropBlanks_spread (neat : Neat .tab buffer) :
    dropBlanks (Buffer.spread unit buffer) =
      ((dropBlanks buffer).1, Buffer.spread unit (dropBlanks buffer).2) := by
  have units : ∀ fragment ∈ unit, fragment.isBlank = true := fun fragment member =>
    same fragment member ▸ indents.isBlank
  rw [(neat.spread same indents).dropBlanks_eq, neat.dropBlanks_eq, breaks_spread same indents,
    (takeWhile_spread rfl units buffer).2]

theorem dropSpace_spread (neat : Neat .tab buffer) :
    dropSpace (Buffer.spread unit buffer) = Buffer.spread unit (dropSpace buffer) := by
  have laid := neat.spread same indents
  obtain ⟨content, earlier, rfl, dropped⟩ | ⟨dropped, none | breakable⟩ := neat.dropSpace_cases
  · rw [dropped]
    exact laid.dropSpace_space
  · rw [none]
    rfl
  · rw [dropped]
    obtain below | ⟨content, earlier, rfl⟩ := breakable
    · exact laid.dropSpace_of_breaks (by rw [breaks_spread same indents]; exact below)
    · rfl

theorem head?_isBlank_spread (neat : Neat .tab buffer) :
    (Buffer.spread unit buffer).head?.any Fragment.isBlank = buffer.head?.any Fragment.isBlank := by
  cases neat with
  | @margin fragment buffer isTab _ neat below =>
    subst isTab
    exact head?_isBlank_of_breaks (by rw [breaks_spread same indents]; exact below)
  | _ => rfl

theorem isEmpty_afterCode_spread (neat : Neat .tab buffer) :
    (Buffer.spread unit buffer).afterCode.isEmpty = buffer.afterCode.isEmpty := by
  have shown : ∀ buffer : Buffer, buffer.afterCode.isEmpty = !buffer.head?.any trailsCode := by
    intro buffer
    cases buffer with
    | nil => rfl
    | cons fragment buffer =>
      rw [afterCode, List.takeWhile_cons, List.head?_cons, Option.any_some]
      split
      · simp [*]
      · simp [*]
  rw [shown, shown]
  cases neat with
  | @margin fragment buffer isTab _ neat below =>
    subst isTab
    have blank := head?_isBlank_of_breaks (by rw [breaks_spread same indents]; exact below :
      0 < breaks (Buffer.spread unit (.tab :: buffer)))
    have trails : (Buffer.spread unit (.tab :: buffer)).head?.any trailsCode = true := by
      revert blank
      cases (Buffer.spread unit (.tab :: buffer)).head? with
      | none => exact id
      | some last =>
        intro blank
        rw [Option.any_some] at blank ⊢
        rw [trailsCode, blank, Bool.true_or]
    rw [trails]
    rfl
  | _ => rfl

theorem head?_eq_text_spread (neat : Neat .tab buffer) (content : String) :
    (Buffer.spread unit buffer).head? = some (.text content) ↔ buffer.head? = some (.text content) := by
  cases neat with
  | @margin fragment buffer isTab _ neat below =>
    subst isTab
    have blank := head?_isBlank_of_breaks (by rw [breaks_spread same indents]; exact below :
      0 < breaks (Buffer.spread unit (.tab :: buffer)))
    constructor
    · intro last
      rw [last] at blank
      cases blank
    · intro last
      cases last
  | _ => rfl

theorem dropLine_unit {buffer : Buffer} (begun : buffer ≠ []) : dropLine (unit ++ buffer) = dropLine buffer := by
  induction unit with
  | nil => rfl
  | cons fragment unit ih =>
    have first : fragment = blank := same fragment List.mem_cons_self
    have other : blank ≠ .newline := by
      rintro rfl
      obtain isSpace | isTab := indents
      · cases isSpace
      · cases isTab
    have more : unit ++ buffer ≠ [] := by simp [begun]
    obtain ⟨last, earlier, shape⟩ := List.exists_cons_of_ne_nil more
    rw [List.cons_append, shape, dropLine, if_neg (by rw [first]; exact other), ← shape]
    exact ih fun other member => same other (List.mem_cons_of_mem _ member)

theorem dropLine_spread (neat : Neat .tab buffer) :
    dropLine (Buffer.spread unit buffer) = Buffer.spread unit (dropLine buffer) := by
  fun_induction dropLine buffer with
  | case1 => rfl
  | case2 first =>
    cases neat with
    | text content neat => rfl
    | newline neat breakable few => exact absurd rfl breakable.ne_nil
    | margin isTab _ neat below => exact absurd below (by decide)
  | case3 before rest =>
    have more := spread_ne_nil same indents neat.tail (List.cons_ne_nil _ _)
    obtain ⟨last, earlier, shape⟩ := List.exists_cons_of_ne_nil more
    rw [spread_newline, shape]
    rfl
  | case4 last before rest other ih =>
    have more := spread_ne_nil same indents neat.tail (List.cons_ne_nil _ _)
    rw [← ih neat.tail]
    cases last with
    | tab => exact dropLine_unit same indents more
    | newline => exact absurd rfl other
    | space | text =>
      obtain ⟨last, earlier, shape⟩ := List.exists_cons_of_ne_nil more
      simp only [spread_space, spread_text]
      rw [shape, dropLine, if_neg (by simp)]

end

end Buffer

end GmlLayout
