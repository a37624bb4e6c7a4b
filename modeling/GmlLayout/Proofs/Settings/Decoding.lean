import GmlLayout.Settings.Decode
import GmlLayout.Settings.Toml
import Mathlib.Data.List.Basic

/-!
What a table of values gives: settings, if every setting in it is missing or has a value that it may have,
and else a report on the first that has not. The report shows the value, and there is none for a value that
holds an integer of too many digits.
-/

namespace GmlLayout

namespace Value

/-- An integer with more digits than are written out stands somewhere in the value. -/
inductive Long : Value → Prop where
  | int {number : Int} (long : Nat.pow 10 Decimal.digitLimit ≤ number.natAbs) : Long (.int number)
  | item {items : List Value} {value : Value} (member : value ∈ items) (long : Long value) : Long (.list items)
  | entry {entries : List (String × Value)} {key : String} {value : Value} (member : (key, value) ∈ entries)
      (long : Long value) : Long (.table entries)

/-- The text of a value is given, or withheld because the value is long. -/
inductive Shown {α : Type} (withheld : Prop) : Except Crash α → Prop where
  | ok {shown : α} (short : ¬withheld) : Shown withheld (.ok shown)
  | error (long : withheld) : Shown withheld (.error .longInteger)

section

variable {α β γ : Type} {first rest : Prop} {shown : Except Crash α} {more : Except Crash β}

theorem Shown.map (one : Shown first shown) (same : first ↔ rest) (next : α → β) :
    Shown rest (shown.map next) := by
  cases one with
  | ok short => exact .ok (mt same.mpr short)
  | error long => exact .error (same.mp long)

theorem Shown.both (one : Shown first shown) (others : Shown rest more) (combine : α → β → γ) :
    Shown (first ∨ rest) (do return combine (← shown) (← more)) := by
  cases one with
  | error long => exact .error (.inl long)
  | ok short =>
    cases others with
    | error long => exact .error (.inr long)
    | ok shorts => exact .ok (not_or.mpr ⟨short, shorts⟩)

end

mutual

theorem shown_display : (value : Value) → Shown value.Long value.display
  | .null | .float _ | .text _ | .other _ | .bool true | .bool false => .ok nofun
  | .int number => by
    unfold display displayInt
    split
    case isTrue short => exact .ok fun | .int long => absurd short (Nat.not_lt.mpr long)
    case isFalse long => exact .error (.int (Nat.not_lt.mp long))
  | .list items => by
    have same : (∃ value ∈ items, Long value) ↔ Long (.list items) :=
      ⟨fun ⟨_, member, long⟩ => .item member long, fun | .item member long => ⟨_, member, long⟩⟩
    exact (shown_displayItems items).map same _
  | .table entries => by
    have same : (∃ entry ∈ entries, Long entry.2) ↔ Long (.table entries) :=
      ⟨fun ⟨(_, _), member, long⟩ => .entry member long, fun | .entry member long => ⟨_, member, long⟩⟩
    exact (shown_displayEntries entries).map same _

theorem shown_displayItems : (items : List Value) → Shown (∃ value ∈ items, Long value) (displayItems items)
  | [] => .ok (by simp)
  | item :: others => by
    have both := (shown_display item).both (shown_displayItems others) List.cons
    simp only [List.mem_cons, or_and_right, exists_or, exists_eq_left, displayItems]
    exact both

theorem shown_displayEntries : (entries : List (String × Value)) →
    Shown (∃ entry ∈ entries, Long entry.2) (displayEntries entries)
  | [] => .ok (by simp)
  | (key, value) :: others => by
    have both := (shown_display value).both (shown_displayEntries others)
      fun shown more => (Text.quoted key ++ ": " ++ shown) :: more
    simp only [List.mem_cons, or_and_right, exists_or, exists_eq_left, displayEntries]
    exact both

end

end Value

namespace InvalidSetting

variable {invalid : InvalidSetting} {diagnostic : Diagnostic}

theorem diagnostic_eq_ok (reported : invalid.diagnostic = .ok diagnostic) :
    ¬invalid.value.Long ∧ diagnostic.details = [("key", invalid.key)] := by
  have shown := Value.shown_display invalid.value
  unfold InvalidSetting.diagnostic at reported
  generalize invalid.value.display = result at shown reported
  cases shown with
  | ok short =>
    cases reported
    exact ⟨short, rfl⟩
  | error long => cases reported

theorem exists_diagnostic (short : ¬invalid.value.Long) : ∃ diagnostic, invalid.diagnostic = .ok diagnostic := by
  have shown := Value.shown_display invalid.value
  unfold InvalidSetting.diagnostic
  generalize invalid.value.display = result at shown ⊢
  cases shown with
  | ok _ => exact ⟨_, rfl⟩
  | error long => exact absurd long short

theorem diagnostic_of_long (long : invalid.value.Long) : invalid.diagnostic = .error .longInteger := by
  have shown := Value.shown_display invalid.value
  unfold InvalidSetting.diagnostic
  generalize invalid.value.display = result at shown ⊢
  cases shown with
  | ok short => exact absurd long short
  | error _ => rfl

end InvalidSetting

namespace Settings

def Admits (key : String) : Value → Prop
  | .bool _ => key = "use_spaces"
  | .int number => key = "space_size" ∧ 1 ≤ number ∨ key = "newlines_at_end" ∧ 0 ≤ number
  | _ => False

instance (key : String) : (value : Value) → Decidable (Admits key value)
  | .bool _ => inferInstanceAs (Decidable (key = _))
  | .int _ => inferInstanceAs (Decidable (_ ∧ _ ∨ _ ∧ _))
  | .null | .float _ | .text _ | .list _ | .table _ | .other _ => inferInstanceAs (Decidable False)

/-- The setting is missing in the table, or has a value that it may have. -/
def Sound (table : Toml.Table) (key : String) : Prop :=
  ∀ value ∈ table.lookup key, Admits key value

instance (table : Toml.Table) (key : String) : Decidable (Sound table key) :=
  inferInstanceAs (Decidable (∀ value ∈ table.lookup key, Admits key value))

/-- Every setting is the one in the table, or the default if the table has none. -/
structure Reflects (settings : Settings) (table : Toml.Table) : Prop where
  useSpaces : (table.lookup "use_spaces").getD (.bool true) = .bool settings.useSpaces
  spaceSize : (table.lookup "space_size").getD (.int 4) = .int settings.spaceSize
  newlinesAtEnd : (table.lookup "newlines_at_end").getD (.int 1) = .int settings.newlinesAtEnd

variable {table : Toml.Table} {settings other : Settings} {key : String}

theorem Reflects.unique (reflects : Reflects settings table) (also : Reflects other table) :
    settings = other := by
  have useSpaces := reflects.useSpaces.symm.trans also.useSpaces
  have spaceSize := reflects.spaceSize.symm.trans also.spaceSize
  have newlinesAtEnd := reflects.newlinesAtEnd.symm.trans also.newlinesAtEnd
  cases settings
  cases other
  simp_all only [Value.bool.injEq, Value.int.injEq, Int.ofNat_inj]

theorem Reflects.congr {also : Toml.Table} (reflects : Reflects settings table)
    (same : ∀ key ∈ keys, table.lookup key = also.lookup key) : Reflects settings also := by
  obtain ⟨useSpaces, spaceSize, newlinesAtEnd⟩ := reflects
  rw [same _ (by decide)] at useSpaces spaceSize newlinesAtEnd
  exact ⟨useSpaces, spaceSize, newlinesAtEnd⟩

/-- What the check of one setting gives: a value that is the one in the table or the default, or an error
that names the setting and its value. -/
inductive Checked {α : Type} (table : Toml.Table) (key : String) (default : Value) (wrap : α → Value) :
    Except InvalidSetting α → Prop where
  | ok {value : α} (sound : Sound table key) (given : (table.lookup key).getD default = wrap value) :
    Checked table key default wrap (.ok value)
  | error {invalid : InvalidSetting} (unsound : ¬Sound table key) (named : invalid.key = key)
      (given : table.lookup key = some invalid.value) : Checked table key default wrap (.error invalid)

theorem exists_lookup_of_find? (first : keys.find? (fun key => ¬Sound table key) = some key) :
    ∃ value, table.lookup key = some value := by
  have bad := List.find?_some first
  cases given : table.lookup key with
  | none => simp [Sound, given] at bad
  | some value => exact ⟨value, rfl⟩

theorem sound_of_none (missing : table.lookup key = none) : Sound table key := by
  simp [Sound, missing]

theorem sound_iff_of_some {value : Value} (found : table.lookup key = some value) :
    Sound table key ↔ Admits key value := by
  simp [Sound, found]

theorem checked_boolean (table : Toml.Table) (default : Bool) (sample : String) :
    Checked table "use_spaces" (.bool default) .bool (boolean table "use_spaces" default sample) := by
  unfold boolean
  split
  case h_1 missing => exact .ok (sound_of_none missing) (by simp [missing])
  case h_2 value found => exact .ok ((sound_iff_of_some found).mpr rfl) (by simp [found])
  case h_3 value noBool found =>
    refine .error (fun sound => ?_) rfl found
    have admits := (sound_iff_of_some found).mp sound
    cases value <;> simp_all [Admits]

theorem checked_integer (table : Toml.Table) (default : Nat) {least : Nat} (expected sample : String)
    (bound : ∀ value, Admits key value ↔ ∃ number : Int, value = .int number ∧ least ≤ number) :
    Checked table key (.int default) (fun number : Nat => .int number)
      (integer table key default least expected sample) := by
  unfold integer
  split
  case h_1 missing => exact .ok (sound_of_none missing) (by simp [missing])
  case h_2 number found =>
    split
    case isTrue enough =>
      have whole : (number.toNat : Int) = number := Int.toNat_of_nonneg (by omega)
      have admits := (bound _).mpr ⟨number, rfl, enough⟩
      exact .ok ((sound_iff_of_some found).mpr admits) (by simp [found, whole])
    case isFalse few =>
      refine .error (fun sound => ?_) rfl found
      obtain ⟨number, same, enough⟩ := (bound _).mp ((sound_iff_of_some found).mp sound)
      cases same
      exact few enough
  case h_3 value noInt found =>
    refine .error (fun sound => ?_) rfl found
    obtain ⟨number, rfl, _⟩ := (bound _).mp ((sound_iff_of_some found).mp sound)
    exact noInt number rfl

theorem admits_spaceSize (value : Value) :
    Admits "space_size" value ↔ ∃ number : Int, value = .int number ∧ (1 : Nat) ≤ number := by
  cases value <;> simp [Admits]

theorem admits_newlinesAtEnd (value : Value) :
    Admits "newlines_at_end" value ↔ ∃ number : Int, value = .int number ∧ (0 : Nat) ≤ number := by
  cases value <;> simp [Admits]

/-- What a table gives: settings that reflect it, or an error that names the first bad setting. -/
inductive Decoded (table : Toml.Table) : Except InvalidSetting Settings → Prop where
  | ok {settings : Settings} (sound : ∀ key ∈ keys, Sound table key) (reflects : Reflects settings table) :
    Decoded table (.ok settings)
  | error {invalid : InvalidSetting} (first : keys.find? (fun key => ¬Sound table key) = some invalid.key)
      (given : table.lookup invalid.key = some invalid.value) : Decoded table (.error invalid)

theorem decoded_of_checked {spaces : Except InvalidSetting Bool} {size ending : Except InvalidSetting Nat}
    (useSpaces : Checked table "use_spaces" (.bool true) .bool spaces)
    (spaceSize : Checked table "space_size" (.int 4) (fun number : Nat => .int number) size)
    (newlinesAtEnd : Checked table "newlines_at_end" (.int 1) (fun number : Nat => .int number) ending) :
    Decoded table (do return { useSpaces := ← spaces, spaceSize := ← size, newlinesAtEnd := ← ending }) := by
  cases useSpaces with
  | error bad named given =>
    have first : keys.find? (fun key => ¬Sound table key) = some "use_spaces" := by simp [keys, bad]
    exact .error (named ▸ first) (named ▸ given)
  | ok spacesSound spacesGiven =>
    cases spaceSize with
    | error bad named given =>
      have first : keys.find? (fun key => ¬Sound table key) = some "space_size" := by
        simp [keys, spacesSound, bad]
      exact .error (named ▸ first) (named ▸ given)
    | ok sizeSound sizeGiven =>
      cases newlinesAtEnd with
      | error bad named given =>
        have first : keys.find? (fun key => ¬Sound table key) = some "newlines_at_end" := by
          simp [keys, spacesSound, sizeSound, bad]
        exact .error (named ▸ first) (named ▸ given)
      | ok endingSound endingGiven =>
        refine .ok ?_ ⟨spacesGiven, sizeGiven, endingGiven⟩
        simp [keys, spacesSound, sizeSound, endingSound]

theorem decoded_ofTable (table : Toml.Table) : Decoded table (ofTable table) :=
  decoded_of_checked (checked_boolean table _ _) (checked_integer table _ _ _ admits_spaceSize)
    (checked_integer table _ _ _ admits_newlinesAtEnd)

/-- A table gives settings exactly when every setting in it is sound, and then they reflect it. -/
theorem ofTable_eq_ok_iff :
    ofTable table = .ok settings ↔ (∀ key ∈ keys, Sound table key) ∧ Reflects settings table := by
  have decoded := decoded_ofTable table
  constructor
  · intro given
    rw [given] at decoded
    obtain ⟨sound, reflects⟩ | _ := decoded
    exact ⟨sound, reflects⟩
  · rintro ⟨sound, reflects⟩
    cases given : ofTable table with
    | ok settings =>
      rw [given] at decoded
      obtain ⟨_, also⟩ | _ := decoded
      rw [also.unique reflects]
    | error invalid =>
      rw [given] at decoded
      obtain _ | ⟨first⟩ := decoded
      have bad := List.find?_some first
      simp [sound _ (List.mem_of_find?_eq_some first)] at bad

theorem exists_ofTable_eq_ok (sound : ∀ key ∈ keys, Sound table key) :
    ∃ settings, ofTable table = .ok settings ∧ Reflects settings table := by
  have decoded := decoded_ofTable table
  cases given : ofTable table with
  | ok settings => exact ⟨settings, rfl, (ofTable_eq_ok_iff.mp given).2⟩
  | error invalid =>
    rw [given] at decoded
    obtain _ | ⟨first⟩ := decoded
    exact absurd (sound _ (List.mem_of_find?_eq_some first)) (by simpa using List.find?_some first)

/-- A table is refused exactly when it has a bad setting, and then the first of these is reported with its
value. -/
theorem exists_ofTable_eq_error_iff {value : Value} :
    (∃ invalid, ofTable table = .error invalid ∧ invalid.key = key ∧ invalid.value = value) ↔
      keys.find? (fun key => ¬Sound table key) = some key ∧ table.lookup key = some value := by
  have decoded := decoded_ofTable table
  constructor
  · rintro ⟨invalid, refused, rfl, rfl⟩
    rw [refused] at decoded
    obtain _ | ⟨first, given⟩ := decoded
    exact ⟨first, given⟩
  · rintro ⟨first, given⟩
    cases result : ofTable table with
    | ok settings =>
      have bad := List.find?_some first
      have sound := (ofTable_eq_ok_iff.mp result).1
      simp [sound _ (List.mem_of_find?_eq_some first)] at bad
    | error invalid =>
      rw [result] at decoded
      obtain _ | ⟨also, alsoGiven⟩ := decoded
      obtain rfl := Option.some.inj (also.symm.trans first)
      exact ⟨invalid, rfl, rfl, Option.some.inj (alsoGiven.symm.trans given)⟩

theorem exists_diagnostic_iff : (∃ invalid diagnostic, ofTable table = .error invalid ∧
    invalid.diagnostic = .ok diagnostic ∧ diagnostic.details = [("key", key)]) ↔
      keys.find? (fun key => ¬Sound table key) = some key ∧ ∀ value ∈ table.lookup key, ¬value.Long := by
  constructor
  · rintro ⟨invalid, diagnostic, refused, reported, details⟩
    obtain ⟨short, named⟩ := InvalidSetting.diagnostic_eq_ok reported
    rw [named, List.cons.injEq, Prod.mk.injEq] at details
    obtain ⟨first, given⟩ := exists_ofTable_eq_error_iff.mp ⟨invalid, refused, details.1.2, rfl⟩
    refine ⟨first, fun value member => ?_⟩
    obtain rfl := Option.some.inj (given.symm.trans member)
    exact short
  · rintro ⟨first, short⟩
    obtain ⟨value, given⟩ := exists_lookup_of_find? first
    obtain ⟨invalid, refused, rfl, rfl⟩ := exists_ofTable_eq_error_iff.mpr ⟨first, given⟩
    obtain ⟨diagnostic, reported⟩ := InvalidSetting.exists_diagnostic (short _ given)
    exact ⟨invalid, diagnostic, refused, reported, (InvalidSetting.diagnostic_eq_ok reported).2⟩

theorem ofTable_congr {also : Toml.Table} (same : ∀ key ∈ keys, table.lookup key = also.lookup key) :
    ofTable table = ofTable also := by
  unfold ofTable boolean integer
  rw [same "use_spaces" (by decide), same "space_size" (by decide), same "newlines_at_end" (by decide)]

end Settings

end GmlLayout
