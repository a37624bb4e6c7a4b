import GmlLayout.Workspace.Basic
import Mathlib.Data.List.Nodup

/-!
The files of a working directory: what replacing the content of one of them leaves alone, and which
files lie below a directory.
-/

namespace GmlLayout

namespace Workspace

variable {workspace : Workspace} {location other : Location} {bytes : ByteArray}

def Distinct (workspace : Workspace) : Prop :=
  (workspace.files.map Prod.fst).Nodup

theorem isFile_iff : workspace.isFile location = true ↔ location ∈ workspace.files.map Prod.fst := by
  unfold isFile bytes?
  generalize workspace.files = files
  induction files with
  | nil => simp
  | cons file files ih =>
    rw [List.lookup_cons, List.map_cons, List.mem_cons, ← ih]
    by_cases here : location = file.1
    · simp [here]
    · simp [here, beq_eq_false_iff_ne.mpr here]

theorem bytes?_replace : (workspace.replace location bytes).bytes? other =
    if other = location then (workspace.bytes? location).map fun _ => bytes else workspace.bytes? other := by
  unfold replace bytes?
  dsimp only
  generalize workspace.files = files
  induction files with
  | nil => simp
  | cons file files ih =>
    rw [List.map_cons, List.lookup_cons, List.lookup_cons, List.lookup_cons, ih]
    by_cases same : other = location
    · subst same
      by_cases here : other = file.1
      · simp [here]
      · simp [beq_eq_false_iff_ne.mpr here, Ne.symm here]
    · by_cases here : file.1 = location
      · simp [here, same, beq_eq_false_iff_ne.mpr same]
      · simp [here, same]

theorem bytes?_replace_of_ne (apart : other ≠ location) :
    (workspace.replace location bytes).bytes? other = workspace.bytes? other := by
  rw [bytes?_replace, if_neg apart]

/-- A text is read from bytes that are UTF-8, with line feeds for all its line breaks. -/
structure Reads (workspace : Workspace) (location : Location) (text : String) : Prop where
  readable : location ∉ workspace.unreadable
  decoded : ∃ bytes content, workspace.bytes? location = some bytes ∧
    String.fromUTF8? bytes = some content ∧ text = String.ofList (Text.unifyBreaks content.toList)

theorem readText_eq_ok_iff {text : String} :
    workspace.readText location = .ok text ↔ workspace.Reads location text := by
  unfold readText
  by_cases denied : location ∈ workspace.unreadable
  · rw [if_pos (by simpa using denied)]
    exact ⟨(fun same => nomatch same), fun reads => absurd denied reads.readable⟩
  · rw [if_neg (by simpa using denied)]
    refine ⟨fun read => ⟨denied, ?_⟩, fun reads => ?_⟩
    · cases found : workspace.bytes? location with
      | none => simp [found] at read
      | some bytes =>
        cases decoded : String.fromUTF8? bytes with
        | none => simp [found, decoded] at read
        | some content =>
          simp only [found, decoded, Except.ok.injEq] at read
          exact ⟨bytes, content, rfl, decoded, read.symm⟩
    · obtain ⟨bytes, content, found, decoded, rfl⟩ := reads.decoded
      simp only [found, decoded]

theorem reads_of_stored {text : String} (allowed : location ∉ workspace.unreadable)
    (stored : workspace.bytes? location = some text.toUTF8) (unreturned : '\r' ∉ text.toList) :
    workspace.Reads location text := by
  have decoded : String.fromUTF8? text.toUTF8 = some text := dif_pos text.isValidUTF8
  refine ⟨allowed, _, text, stored, decoded, ?_⟩
  rw [Text.unifyBreaks_of_unreturned unreturned, String.ofList_toList]

theorem readText_congr {first second : Workspace} (same : first.bytes? location = second.bytes? location)
    (allowed : first.unreadable = second.unreadable) :
    first.readText location = second.readText location := by
  unfold readText
  rw [same, allowed]

section Below

variable {directory : Location} {accepted : String → Bool}

/-- The location as seen from a directory above it, if its name is accepted. -/
def seenFrom? (directory : Location) (accepted : String → Bool) (location : Location) : Option Location :=
  if directory.isPrefixOf location && location != directory && location.getLast?.any accepted then
    some (location.drop directory.length)
  else none

theorem seenFrom?_eq_some_iff : seenFrom? directory accepted location = some other ↔
    location = directory ++ other ∧ other ≠ [] ∧ location.getLast?.any accepted = true := by
  unfold seenFrom?
  constructor
  · intro seen
    split at seen
    · rename_i below
      simp only [Bool.and_eq_true, List.isPrefixOf_iff_prefix, bne_iff_ne, ne_eq] at below
      obtain ⟨⟨⟨rest, rfl⟩, apart⟩, named⟩ := below
      rw [List.drop_left, Option.some.injEq] at seen
      subst seen
      exact ⟨rfl, fun empty => apart (by rw [empty, List.append_nil]), named⟩
    · cases seen
  · rintro ⟨rfl, nonempty, named⟩
    have apart : directory ++ other ≠ directory := by simpa using nonempty
    rw [if_pos (by simp only [Bool.and_eq_true, bne_iff_ne]; exact ⟨⟨by simp, apart⟩, named⟩), List.drop_left]

theorem filesBelow_perm : (workspace.filesBelow directory accepted).Perm
    ((workspace.files.map Prod.fst).filterMap (seenFrom? directory accepted)) := by
  rw [List.filterMap_map]
  exact List.mergeSort_perm _ _

theorem mem_filesBelow : other ∈ workspace.filesBelow directory accepted ↔
    other ≠ [] ∧ workspace.isFile (directory ++ other) = true ∧
      (directory ++ other).getLast?.any accepted = true := by
  rw [filesBelow_perm.mem_iff, List.mem_filterMap, isFile_iff]
  constructor
  · rintro ⟨location, member, seen⟩
    obtain ⟨rfl, nonempty, named⟩ := seenFrom?_eq_some_iff.mp seen
    exact ⟨nonempty, member, named⟩
  · rintro ⟨nonempty, member, named⟩
    exact ⟨_, member, seenFrom?_eq_some_iff.mpr ⟨rfl, nonempty, named⟩⟩

theorem nodup_filesBelow (distinct : workspace.Distinct) :
    (workspace.filesBelow directory accepted).Nodup := by
  rw [filesBelow_perm.nodup_iff]
  refine List.Nodup.filterMap (fun first second seen firstSeen secondSeen => ?_) distinct
  obtain ⟨rfl, _⟩ := seenFrom?_eq_some_iff.mp firstSeen
  exact (seenFrom?_eq_some_iff.mp secondSeen).1.symm

end Below

end Workspace

end GmlLayout
