import GmlLayout.Proofs.Layout.Parted

/-!
Buffers whose numbers are made whole. The two parts of a number are written as two texts. Where the texts of
a buffer stay apart but for such parts, they all do so once the parts are joined.
-/

namespace GmlLayout

theorem Firm.completed {first second : String} (isNumber : completes first second = true) (front : Firm first)
    (back : Firm second) : Firm (first ++ second) := by
  obtain ⟨noRemark, noRemark'⟩ := noRemark_of_completes isNumber
  refine .inr fun next detached => ?_
  have alone := front.resolve_left (by rw [noRemark]; exact Bool.false_ne_true)
  have apart := back.resolve_left (by rw [noRemark']; exact Bool.false_ne_true)
  exact .completed isNumber (alone "" rfl) (apart next detached)

theorem Beside.of_head? [Account] {first second other : String} (beside : Beside first second)
    (code : isRemarkText second = false) (same : other.toList.head? = second.toList.head?) :
    Beside first other := by
  obtain remark | ⟨_, remark⟩ | apart := beside
  · exact .inl remark
  · rw [code] at remark
    cases remark
  · exact .inr (.inr (apart.of_head? same))

namespace Buffer

/-- The buffer with the two parts of each number made one text. -/
def joined : Buffer → Buffer
  | [] => []
  | .text second :: .text first :: earlier =>
    if completes first second then .text (first ++ second) :: joined earlier
    else .text second :: joined (.text first :: earlier)
  | fragment :: earlier => fragment :: joined earlier

theorem reverse_suffix {buffer : Buffer} {before later : List Fragment} (shape : buffer.reverse = before ++ later) :
    before.reverse <:+ buffer :=
  ⟨later.reverse, by rw [← List.reverse_append, ← shape, List.reverse_reverse]⟩

/-- The two texts stand side by side, the first in front of the second. -/
def Adjacent (buffer : Buffer) (first second : String) : Prop :=
  ∃ before later, buffer.reverse = before ++ .text first :: .text second :: later

theorem Adjacent.exists_suffix {buffer : Buffer} {first second : String} (adjacent : Adjacent buffer first second) :
    ∃ earlier, .text second :: .text first :: earlier <:+ buffer := by
  obtain ⟨before, later, shape⟩ := adjacent
  have split : buffer.reverse = (before ++ [.text first, .text second]) ++ later := by
    rw [shape, List.append_assoc]
    rfl
  have isSuffix := reverse_suffix split
  rw [List.reverse_append] at isSuffix
  exact ⟨before.reverse, isSuffix⟩

theorem joined_blank {fragment : Fragment} {buffer : Buffer} (isBlank : fragment.isBlank = true) :
    joined (fragment :: buffer) = fragment :: joined buffer := by
  cases fragment with
  | text content => cases isBlank
  | space | tab | newline => rfl

theorem joined_number {first second : String} {buffer : Buffer} (isNumber : completes first second = true) :
    joined (.text second :: .text first :: buffer) = .text (first ++ second) :: joined buffer := by
  rw [joined, if_pos isNumber]

section

variable [Account]

/-- No two texts stand side by side that may not, and brackets may be put behind each of them. -/
def Severed : Buffer → Prop
  | [] => True
  | .text content :: earlier => Firm content ∧ Takes earlier content ∧ Severed earlier
  | _ :: earlier => Severed earlier

variable {buffer : Buffer}

theorem joined_text {content : String} (takes : Takes buffer content) :
    joined (.text content :: buffer) = .text content :: joined buffer := by
  cases buffer with
  | nil => rfl
  | cons fragment earlier =>
    cases fragment with
    | text first =>
      rw [joined, if_neg fun isNumber => not_beside_of_completes isNumber (takes first rfl)]
    | space | tab | newline => rfl

/-- What could be written behind the last text can be written behind the number that it is a part of. -/
theorem Parted.takes_joined (parted : Parted buffer) {next : String} (takes : Takes buffer next) :
    Takes (joined buffer) next := by
  cases parted with
  | nil => exact takes
  | blank isBlank _ =>
    rw [joined_blank isBlank]
    exact takes_blank isBlank next
  | text firm before _ =>
    rw [joined_text before]
    exact fun content isLast => takes content isLast
  | @number first second earlier isNumber firm before parted =>
    rw [joined_number isNumber]
    rintro _ ⟨⟩
    obtain remark | spared | apart := takes second rfl
    · rw [(noRemark_of_completes isNumber).2] at remark
      cases remark
    · exact .inr (.inl spared)
    · obtain remark | alone := parted.firm
      · rw [(noRemark_of_completes isNumber).1] at remark
        cases remark
      · exact .inr (.inr (.completed isNumber (alone "" rfl) apart))

theorem Parted.joined (parted : Parted buffer) : Severed buffer.joined := by
  induction parted with
  | nil => trivial
  | @blank fragment buffer isBlank parted ih =>
    rw [joined_blank isBlank]
    cases fragment with
    | text content => cases isBlank
    | space | tab | newline => exact ih
  | text firm takes parted ih =>
    rw [joined_text takes]
    exact ⟨firm, parted.takes_joined takes, ih⟩
  | @number first second earlier isNumber firm takes parted ih =>
    rw [joined_text takes] at ih
    obtain ⟨front, room, severed⟩ := ih
    rw [joined_number isNumber]
    refine ⟨.completed isNumber front firm, fun last isLast => ?_, severed⟩
    exact (room last isLast).of_head? (noRemark_of_completes isNumber).1 (head?_completed isNumber)

namespace Severed

theorem of_suffix {earlier : Buffer} (severed : Severed buffer) (isSuffix : earlier <:+ buffer) :
    Severed earlier := by
  obtain ⟨later, rfl⟩ := isSuffix
  induction later with
  | nil => exact severed
  | cons fragment later ih =>
    cases fragment with
    | text content => exact ih severed.2.2
    | space | tab | newline => exact ih severed

theorem beside (severed : Severed buffer) {first second : String} (adjacent : Adjacent buffer first second) :
    Beside first second := by
  obtain ⟨earlier, isSuffix⟩ := adjacent.exists_suffix
  obtain ⟨_, takes, _⟩ := severed.of_suffix isSuffix
  exact takes first rfl

theorem firm (severed : Severed buffer) {content : String} (member : .text content ∈ buffer) : Firm content := by
  obtain ⟨later, earlier, rfl⟩ := List.append_of_mem member
  exact (severed.of_suffix (List.suffix_append _ _)).1

end Severed

end

end Buffer

end GmlLayout
