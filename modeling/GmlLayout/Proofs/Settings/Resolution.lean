import GmlLayout.Proofs.Settings.Decoding
import GmlLayout.Proofs.Workspace.Files
import GmlLayout.Settings.Lookup

/-!
The settings of a directory come from one file as a whole or not at all. The first settings file that exists
decides, also when it cannot be used; a table with one bad value gives no settings, whatever else it holds;
and a good table gives each setting its value in the table or the default. There are two ways to get neither:
the system does not tell whether a file exists, or a file can be neither used nor passed over, because the
decoder dies of it or a bad value in it is too long for the warning.
-/

namespace GmlLayout

section Search

variable {α β ε : Type} {look : α → Except ε (Option β)} {items before after : List α} {item : α}

/-- What a search comes to, which goes on while nothing is found and nothing goes wrong. -/
inductive Search (look : α → Except ε (Option β)) (items : List α) : Except ε (Option β) → Prop where
  | none (absent : ∀ item ∈ items, look item = .ok none) : Search look items (.ok none)
  | some {before after : List α} {item : α} {found : β} (split : items = before ++ item :: after)
      (absent : ∀ earlier ∈ before, look earlier = .ok none) (here : look item = .ok (some found)) :
      Search look items (.ok (some found))
  | error {before after : List α} {item : α} {cause : ε} (split : items = before ++ item :: after)
      (absent : ∀ earlier ∈ before, look earlier = .ok none) (here : look item = .error cause) :
      Search look items (.error cause)

theorem findSomeM?_append_of_absent (absent : ∀ earlier ∈ before, look earlier = .ok none) :
    (before ++ items).findSomeM? look = items.findSomeM? look := by
  induction before with
  | nil => rfl
  | cons first before ih =>
    obtain ⟨here, later⟩ := List.forall_mem_cons.mp absent
    rw [List.cons_append, List.findSomeM?_cons, here]
    exact ih later

theorem search_findSomeM? (items : List α) : Search look items (items.findSomeM? look) := by
  induction items with
  | nil => exact .none nofun
  | cons item items ih =>
    rw [List.findSomeM?_cons]
    cases here : look item with
    | error cause => exact .error (List.nil_append _).symm nofun here
    | ok result =>
      cases result with
      | some found => exact .some (List.nil_append _).symm nofun here
      | none =>
        change Search look (item :: items) (items.findSomeM? look)
        generalize items.findSomeM? look = result at ih ⊢
        cases ih with
        | none absent => exact .none (List.forall_mem_cons.mpr ⟨here, absent⟩)
        | some split absent found =>
          exact .some (congrArg (item :: ·) split) (List.forall_mem_cons.mpr ⟨here, absent⟩) found
        | error split absent fails =>
          exact .error (congrArg (item :: ·) split) (List.forall_mem_cons.mpr ⟨here, absent⟩) fails

end Search

namespace SettingsFile

variable {workspace another : Workspace} {directory : Option Path} {file : SettingsFile} {name : String}
  {decode : Toml.Decoder} {table : Toml.Table} {crash : Crash}

/-- The file lies in the directory, which is the working directory if none is given. -/
structure Lies (workspace : Workspace) (directory : Option Path) (file : SettingsFile) : Prop where
  found : status workspace directory file.name = .ok (some (.file file.location))
  shown : file.shown = (pathIn workspace directory file.name).toText

def Absent (workspace : Workspace) (directory : Option Path) (name : String) : Prop :=
  ∃ entry, status workspace directory name = .ok entry ∧ ∀ location, entry ≠ some (.file location)

theorem inDirectory?_eq_some_iff :
    inDirectory? workspace directory name = .ok (some file) ↔ file.name = name ∧ Lies workspace directory file := by
  obtain ⟨title, shown, location⟩ := file
  unfold inDirectory?
  dsimp only
  constructor
  · intro here
    split at here <;> cases here
    rename_i found
    exact ⟨rfl, found, rfl⟩
  · rintro ⟨rfl, found, shown⟩
    dsimp only at found shown
    rw [found, shown]

theorem inDirectory?_eq_none_iff :
    inDirectory? workspace directory name = .ok none ↔ Absent workspace directory name := by
  unfold inDirectory? Absent
  dsimp only
  cases status workspace directory name with
  | error error => simp
  | ok entry => rcases entry with _ | location | place <;> simp

theorem inDirectory?_eq_error_iff : inDirectory? workspace directory name = .error crash ↔
    ∃ error, status workspace directory name = .error error ∧
      crash = .hidden error (pathIn workspace directory name).toText := by
  unfold inDirectory?
  dsimp only
  cases status workspace directory name with
  | error error => simp [eq_comm]
  | ok entry => rcases entry with _ | location | place <;> simp

structure First (workspace : Workspace) (directory : Option Path) (file : SettingsFile) : Prop where
  lies : Lies workspace directory file
  sooner : ∃ before after, names = before ++ file.name :: after ∧
    ∀ name ∈ before, Absent workspace directory name

/-- Before a settings file is found, the system does not tell whether one exists. -/
inductive Barred (workspace : Workspace) (directory : Option Path) : Crash → Prop where
  | hidden {before after : List String} {name : String} {error : FileError}
      (split : names = before ++ name :: after) (absent : ∀ name ∈ before, Absent workspace directory name)
      (untold : status workspace directory name = .error error) :
      Barred workspace directory (.hidden error (pathIn workspace directory name).toText)

theorem find?_eq_none (absent : ∀ name ∈ names, Absent workspace directory name) :
    find? workspace directory = .ok none := by
  have skipped : (names ++ []).findSomeM? (inDirectory? workspace directory) = .ok none :=
    findSomeM?_append_of_absent fun name member => inDirectory?_eq_none_iff.mpr (absent name member)
  exact skipped

theorem find?_eq_some (first : First workspace directory file) :
    find? workspace directory = .ok (some file) := by
  obtain ⟨lies, before, after, split, absent⟩ := first
  unfold find?
  rw [split, findSomeM?_append_of_absent fun name member => inDirectory?_eq_none_iff.mpr (absent name member),
    List.findSomeM?_cons, inDirectory?_eq_some_iff.mpr ⟨rfl, lies⟩]
  rfl

theorem find?_eq_error (barred : Barred workspace directory crash) :
    find? workspace directory = .error crash := by
  obtain ⟨split, absent, untold⟩ := barred
  unfold find?
  rw [split, findSomeM?_append_of_absent fun name member => inDirectory?_eq_none_iff.mpr (absent name member),
    List.findSomeM?_cons, inDirectory?_eq_error_iff.mpr ⟨_, untold, rfl⟩]
  rfl

theorem find?_cases (workspace : Workspace) (directory : Option Path) :
    (∀ name ∈ names, Absent workspace directory name) ∨ (∃ file, First workspace directory file) ∨
      ∃ crash, Barred workspace directory crash := by
  have searched : Search (inDirectory? workspace directory) names _ := search_findSomeM? names
  generalize names.findSomeM? (inDirectory? workspace directory) = result at searched
  cases searched with
  | none absent => exact .inl fun name member => inDirectory?_eq_none_iff.mp (absent name member)
  | some split absent here =>
    obtain ⟨rfl, lies⟩ := inDirectory?_eq_some_iff.mp here
    have sooner := fun name member => inDirectory?_eq_none_iff.mp (absent name member)
    exact .inr (.inl ⟨_, lies, _, _, split, sooner⟩)
  | error split absent here =>
    obtain ⟨error, untold, _⟩ := inDirectory?_eq_error_iff.mp here
    have sooner := fun name member => inDirectory?_eq_none_iff.mp (absent name member)
    exact .inr (.inr ⟨_, .hidden split sooner untold⟩)

def Denotes (decode : Toml.Decoder) (workspace : Workspace) (file : SettingsFile) (table : Toml.Table) : Prop :=
  ∃ text, workspace.Reads file.location text ∧ decode text = .ok table

/-- The file denotes the table, and every setting in the table is sound. -/
structure Usable (decode : Toml.Decoder) (workspace : Workspace) (file : SettingsFile)
    (table : Toml.Table) : Prop where
  denotes : Denotes decode workspace file table
  sound : ∀ key ∈ Settings.keys, Settings.Sound table key

/-- The file can be neither used nor passed over: the decoder dies of its text, or the first bad value in it
is too long for the warning. -/
inductive Fatal (decode : Toml.Decoder) (workspace : Workspace) (file : SettingsFile) : Crash → Prop where
  | decoder {text : String} {crash : Crash} (reads : workspace.Reads file.location text)
      (dies : decode text = .error (.crash crash)) : Fatal decode workspace file crash
  | value {table : Toml.Table} {key : String} {value : Value} (denotes : Denotes decode workspace file table)
      (first : Settings.keys.find? (fun key => ¬Settings.Sound table key) = some key)
      (given : table.lookup key = some value) (long : value.Long) : Fatal decode workspace file .longInteger

theorem table_eq_ok_iff : file.table workspace decode = .ok table ↔ Denotes decode workspace file table := by
  simp only [Denotes, ← Workspace.readText_eq_ok_iff]
  unfold SettingsFile.table
  cases read : workspace.readText file.location with
  | error cause => simp [Except.mapError, bind, Except.bind]
  | ok text => cases decoded : decode text <;> simp [Except.mapError, bind, Except.bind, decoded]

theorem load_of_usable (usable : Usable decode workspace file table) :
    ∃ settings unknown, file.load workspace decode = .ok (settings, unknown) ∧ settings.Reflects table := by
  obtain ⟨settings, given, reflects⟩ := Settings.exists_ofTable_eq_ok usable.sound
  have loaded : file.load workspace decode = .ok (settings,
      ((table.map Prod.fst).filter fun key => key ∉ Settings.keys).mergeSort fun a b => a ≤ b) := by
    simp only [load, table_eq_ok_iff.mpr usable.denotes, given, Except.mapError, bind, Except.bind]
    rfl
  exact ⟨settings, _, loaded, reflects⟩

theorem load_of_invalid {invalid : InvalidSetting} (denotes : Denotes decode workspace file table)
    (refused : Settings.ofTable table = .error invalid) :
    file.load workspace decode = .error (.invalid invalid) := by
  simp only [load, table_eq_ok_iff.mpr denotes, refused, Except.mapError, bind, Except.bind]

theorem load_of_fatal (fatal : Fatal decode workspace file crash) : ∃ fault,
    file.load workspace decode = .error fault ∧ fault.message file.name file.shown = .error crash := by
  cases fatal with
  | decoder reads dies =>
    refine ⟨.undecodable (.crash crash), ?_, rfl⟩
    simp only [load, SettingsFile.table, Workspace.readText_eq_ok_iff.mpr reads, dies, Except.mapError, bind,
      Except.bind]
  | value denotes first given long =>
    obtain ⟨invalid, refused, rfl, rfl⟩ := Settings.exists_ofTable_eq_error_iff.mpr ⟨first, given⟩
    refine ⟨.invalid invalid, load_of_invalid denotes refused, ?_⟩
    simp only [SettingsFault.message, InvalidSetting.diagnostic_of_long long]
    rfl

theorem load_cases (decode : Toml.Decoder) (workspace : Workspace) (file : SettingsFile) :
    (∃ table, Usable decode workspace file table) ∨ (∃ crash, Fatal decode workspace file crash) ∨
      ∃ fault reason, file.load workspace decode = .error fault ∧
        fault.message file.name file.shown = .ok reason := by
  cases read : workspace.readText file.location with
  | error cause =>
    refine .inr (.inr ⟨.unreadable cause, _, ?_, rfl⟩)
    simp only [load, SettingsFile.table, read, Except.mapError, bind, Except.bind]
  | ok text =>
    have reads := Workspace.readText_eq_ok_iff.mp read
    cases decoded : decode text with
    | error fault =>
      cases fault with
      | crash crash => exact .inr (.inl ⟨crash, .decoder reads decoded⟩)
      | notToml =>
        refine .inr (.inr ⟨.undecodable .notToml, _, ?_, rfl⟩)
        simp only [load, SettingsFile.table, read, decoded, Except.mapError, bind, Except.bind]
    | ok table =>
      have denotes : Denotes decode workspace file table := ⟨text, reads, decoded⟩
      cases given : Settings.ofTable table with
      | ok settings => exact .inl ⟨table, denotes, (Settings.ofTable_eq_ok_iff.mp given).1⟩
      | error invalid =>
        obtain ⟨first, shown⟩ := Settings.exists_ofTable_eq_error_iff.mp ⟨invalid, given, rfl, rfl⟩
        by_cases long : invalid.value.Long
        · exact .inr (.inl ⟨_, .value denotes first shown long⟩)
        · obtain ⟨diagnostic, reported⟩ := InvalidSetting.exists_diagnostic long
          refine .inr (.inr ⟨.invalid invalid, diagnostic.message, load_of_invalid denotes given, ?_⟩)
          simp only [SettingsFault.message, reported]
          rfl

def known (decode : Toml.Decoder) (workspace : Workspace) (file : SettingsFile) :
    Except SettingsFault (List (Option Value)) :=
  (file.table workspace decode).map fun table => Settings.keys.map fun key => table.lookup key

theorem load_congr (same : known decode another file = known decode workspace file) :
    (file.load another decode).map Prod.fst = (file.load workspace decode).map Prod.fst := by
  unfold known at same
  unfold load
  cases held : file.table workspace decode with
  | error fault =>
    cases heldToo : file.table another decode with
    | error other =>
      rw [held, heldToo] at same
      cases same
      rfl
    | ok other =>
      rw [held, heldToo] at same
      cases same
  | ok table =>
    cases heldToo : file.table another decode with
    | error other =>
      rw [held, heldToo] at same
      cases same
    | ok other =>
      rw [held, heldToo] at same
      have agree := Settings.ofTable_congr (List.map_inj_left.mp (Except.ok.inj same))
      simp only [bind, Except.bind, agree]
      cases Settings.ofTable table <;> rfl

end SettingsFile

namespace ResolvedSettings

open SettingsFile

variable {workspace another : Workspace} {directory : Option Path} {file : SettingsFile}
  {decode : Toml.Decoder} {table : Toml.Table} {crash : Crash}

/-- The settings without the log: what they are, of what kind, and from which file. -/
def outline (resolved : ResolvedSettings) : Settings × String × Option String :=
  (resolved.settings, resolved.kind, resolved.origin)

theorem find_of_absent (absent : ∀ name ∈ names, Absent workspace directory name) :
    find decode workspace directory = .ok ⟨{}, none, []⟩ := by
  unfold find
  rw [find?_eq_none absent]
  rfl

theorem find_of_barred (barred : Barred workspace directory crash) :
    find decode workspace directory = .error crash := by
  unfold find
  rw [find?_eq_error barred]
  rfl

theorem find_of_usable (first : First workspace directory file) (usable : Usable decode workspace file table) :
    ∃ resolved, find decode workspace directory = .ok resolved ∧ resolved.settings.Reflects table ∧
      resolved.kind = "toml" ∧ resolved.origin = some file.shown := by
  obtain ⟨settings, unknown, loaded, reflects⟩ := load_of_usable usable
  unfold find
  rw [find?_eq_some first]
  simp only [bind, Except.bind, loaded]
  exact ⟨_, rfl, reflects, rfl, rfl⟩

theorem find_of_fatal (first : First workspace directory file) (fatal : Fatal decode workspace file crash) :
    find decode workspace directory = .error crash := by
  obtain ⟨fault, loaded, untold⟩ := load_of_fatal fatal
  unfold find
  rw [find?_eq_some first]
  simp only [bind, Except.bind, loaded, untold]

theorem find_of_unusable (first : First workspace directory file)
    (unusable : ∀ table, ¬Usable decode workspace file table)
    (mild : ∀ crash, ¬Fatal decode workspace file crash) :
    ∃ resolved, find decode workspace directory = .ok resolved ∧ resolved.settings = {} ∧
      resolved.kind = "defaults" ∧ resolved.origin = none := by
  obtain ⟨table, usable⟩ | ⟨crash, fatal⟩ | ⟨fault, reason, loaded, told⟩ := load_cases decode workspace file
  · exact absurd usable (unusable table)
  · exact absurd fatal (mild crash)
  · unfold find
    rw [find?_eq_some first]
    simp only [bind, Except.bind, loaded, told]
    exact ⟨_, rfl, rfl, rfl, rfl⟩

theorem find_eq_error_iff : find decode workspace directory = .error crash ↔
    Barred workspace directory crash ∨
      ∃ file, First workspace directory file ∧ Fatal decode workspace file crash := by
  constructor
  · intro died
    obtain absent | ⟨file, first⟩ | ⟨other, barred⟩ := find?_cases workspace directory
    · cases died.symm.trans (find_of_absent absent)
    · obtain ⟨table, usable⟩ | ⟨other, fatal⟩ | ⟨fault, reason, loaded, told⟩ := load_cases decode workspace file
      · obtain ⟨resolved, found, _⟩ := find_of_usable first usable
        cases died.symm.trans found
      · cases died.symm.trans (find_of_fatal first fatal)
        exact .inr ⟨file, first, fatal⟩
      · unfold find at died
        rw [find?_eq_some first] at died
        simp only [bind, Except.bind, loaded, told] at died
        cases died
    · cases died.symm.trans (find_of_barred barred)
      exact .inl barred
  · rintro (barred | ⟨file, first, fatal⟩)
    · exact find_of_barred barred
    · exact find_of_fatal first fatal

theorem find_congr (first : First workspace directory file) (also : First another directory file)
    (same : known decode another file = known decode workspace file) :
    (find decode another directory).map outline = (find decode workspace directory).map outline := by
  have loads := load_congr same
  unfold find
  rw [find?_eq_some first, find?_eq_some also]
  simp only [bind, Except.bind]
  cases loaded : file.load workspace decode with
  | error fault =>
    cases loadedToo : file.load another decode with
    | error other =>
      rw [loaded, loadedToo] at loads
      cases loads
      rfl
    | ok result =>
      rw [loaded, loadedToo] at loads
      cases loads
  | ok result =>
    cases loadedToo : file.load another decode with
    | error other =>
      rw [loaded, loadedToo] at loads
      cases loads
    | ok other =>
      rw [loaded, loadedToo] at loads
      have settings : other.1 = result.1 := Except.ok.inj loads
      simp only [Except.map, pure, Except.pure, outline, kind, settings]

/-- The settings of a directory are those of its first settings file if that file can be used, and the
defaults if there is no such file or it can be passed over. There are none exactly if the search is barred
or the first file is fatal. No other file and no other key has a say, and a table with a bad setting is
refused with a report on the first of them, unless its value is too long to be shown. -/
theorem find_all_or_nothing (decode : Toml.Decoder) (workspace : Workspace) (directory : Option Path) :
    (∀ file table, First workspace directory file → Usable decode workspace file table →
      ∃ resolved, find decode workspace directory = .ok resolved ∧ resolved.settings.Reflects table ∧
        resolved.kind = "toml" ∧ resolved.origin = some file.shown) ∧
    ((∀ name ∈ names, Absent workspace directory name) ∨ (∃ file, First workspace directory file ∧
        (∀ table, ¬Usable decode workspace file table) ∧ ∀ crash, ¬Fatal decode workspace file crash) →
      ∃ resolved, find decode workspace directory = .ok resolved ∧ resolved.settings = {} ∧
        resolved.kind = "defaults" ∧ resolved.origin = none) ∧
    (∀ crash, find decode workspace directory = .error crash ↔ Barred workspace directory crash ∨
      ∃ file, First workspace directory file ∧ Fatal decode workspace file crash) ∧
    (∀ another file, First workspace directory file → First another directory file →
      known decode another file = known decode workspace file →
      (find decode another directory).map outline = (find decode workspace directory).map outline) ∧
    ∀ table : Toml.Table,
      (∀ settings, Settings.ofTable table = .ok settings ↔
        (∀ key ∈ Settings.keys, Settings.Sound table key) ∧ settings.Reflects table) ∧
      ∀ key, (∃ invalid diagnostic, Settings.ofTable table = .error invalid ∧
          invalid.diagnostic = .ok diagnostic ∧ diagnostic.details = [("key", key)]) ↔
        Settings.keys.find? (fun key => ¬Settings.Sound table key) = some key ∧
          ∀ value ∈ table.lookup key, ¬value.Long := by
  refine ⟨fun _ _ => find_of_usable, ?_, fun _ => find_eq_error_iff, fun _ _ => find_congr,
    fun _ => ⟨fun _ => Settings.ofTable_eq_ok_iff, fun _ => Settings.exists_diagnostic_iff⟩⟩
  rintro (absent | ⟨file, first, unusable, mild⟩)
  · exact ⟨_, find_of_absent absent, rfl, rfl, rfl⟩
  · exact find_of_unusable first unusable mild

/-- The second of three names is the first that exists, an unknown key in it is passed over, and the broken
file behind it is not looked at. -/
theorem find_all_or_nothing_second_name :
    let workspace : Workspace :=
      { home := "/w"
        files := [([".gml_fmt"], "use_spaces = 1\n".toUTF8),
          ([".gml_fmt.toml"], "space_size = 2\ncolor = 1\n".toUTF8)] }
    ∃ resolved, find Toml.read workspace none = .ok resolved ∧ resolved.settings = { spaceSize := 2 } ∧
      resolved.kind = "toml" ∧ resolved.origin = some "/w/.gml_fmt.toml" := by
  intro workspace
  have absent : Absent workspace none "gml_fmt.toml" := ⟨none, rfl, nofun⟩
  have lies : Lies workspace none ⟨".gml_fmt.toml", "/w/.gml_fmt.toml", [".gml_fmt.toml"]⟩ :=
    ⟨rfl, by decide +kernel⟩
  have first : First workspace none ⟨".gml_fmt.toml", "/w/.gml_fmt.toml", [".gml_fmt.toml"]⟩ :=
    ⟨lies, ["gml_fmt.toml"], [".gml_fmt"], rfl, by simpa using absent⟩
  have reads : workspace.Reads [".gml_fmt.toml"] "space_size = 2\ncolor = 1\n" :=
    Workspace.reads_of_stored (by decide) rfl (by decide)
  have denotes : Toml.read "space_size = 2\ncolor = 1\n" =
      .ok [("space_size", .int 2), ("color", .int 1)] := rfl
  have usable : Usable Toml.read workspace ⟨".gml_fmt.toml", "/w/.gml_fmt.toml", [".gml_fmt.toml"]⟩
      [("space_size", .int 2), ("color", .int 1)] := ⟨⟨_, reads, denotes⟩, by decide⟩
  obtain ⟨resolved, found, reflects, kind, origin⟩ :=
    (find_all_or_nothing Toml.read workspace none).1 _ _ first usable
  exact ⟨resolved, found, reflects.unique ⟨rfl, rfl, rfl⟩, kind, origin⟩

end ResolvedSettings

namespace Toml

theorem moreDigits_replicate {isDigit : Char → Bool} {c : Char} (plain : c ≠ '_') (digit : isDigit c = true)
    (count : Nat) : moreDigits isDigit (List.replicate count c) = (List.replicate count c, []) := by
  induction count with
  | zero => rfl
  | succ count ih => rw [List.replicate_succ, moreDigits.eq_2 _ _ _ (by simp [plain]), if_pos digit, ih]

def hexPower (zeros : Nat) : Nat :=
  Nat.pow 16 zeros

theorem natOfDigits_zeros (digits : List Char) (count : Nat) :
    natOfDigits 16 (digits ++ List.replicate count '0') = natOfDigits 16 digits * hexPower count := by
  induction count with
  | zero => rw [List.replicate_zero, List.append_nil, show hexPower 0 = 1 from rfl, Nat.mul_one]
  | succ count ih =>
    have zero : (hexValue? '0').getD 0 = 0 := by decide
    unfold natOfDigits at ih ⊢
    rw [List.replicate_succ', ← List.append_assoc, List.foldl_append, ih, List.foldl_cons, List.foldl_nil, zero,
      Nat.add_zero, Nat.mul_comm 16, Nat.mul_assoc]
    rfl

def hexEntry (zeros : Nat) : List Char :=
  'u' :: 's' :: 'e' :: '_' :: 's' :: 'p' :: 'a' :: 'c' :: 'e' :: 's' :: ' ' :: '=' :: ' ' :: '0' :: 'x' ::
    '1' :: List.replicate zeros '0'

theorem unreturned_hexEntry (zeros : Nat) : '\r' ∉ hexEntry zeros := by
  simp [hexEntry, List.mem_replicate]

theorem number_hex (zeros : Nat) : number ('0' :: 'x' :: '1' :: List.replicate zeros '0') =
    .ok (.int (hexPower zeros), []) := by
  have found : digits (fun c => (hexValue? c).any (· < 16)) ('1' :: List.replicate zeros '0') =
      some ('1' :: List.replicate zeros '0', []) := by
    rw [digits, moreDigits_replicate (by decide) (by decide)]
    rfl
  have value := natOfDigits_zeros ['1'] zeros
  have one : natOfDigits 16 ['1'] = 1 := by decide
  rw [one, Nat.one_mul] at value
  unfold number basedInteger
  simp only [found, ← value]
  rfl

theorem read_hex (zeros : Nat) : read (String.ofList (hexEntry zeros)) =
    .ok [("use_spaces", .int (hexPower zeros))] := by
  have found : key (hexEntry zeros).length (hexEntry zeros) =
      some (["use_spaces"], '=' :: ' ' :: '0' :: 'x' :: '1' :: List.replicate zeros '0') := rfl
  have given : value (hexEntry zeros).length ('0' :: 'x' :: '1' :: List.replicate zeros '0') =
      .ok (.int (hexPower zeros), []) := number_hex zeros
  have named : entry (value (hexEntry zeros).length) (hexEntry zeros) =
      .ok ((["use_spaces"], .int (hexPower zeros)), []) := by
    have spaced : skipBlanks (' ' :: '0' :: 'x' :: '1' :: List.replicate zeros '0') =
        '0' :: 'x' :: '1' :: List.replicate zeros '0' := rfl
    simp only [entry, found, orRefuse, bind, Except.bind, spaced, given]
    rfl
  have stated : statement {} (hexEntry zeros) =
      .ok ({ table := [("use_spaces", .int (hexPower zeros))] }, []) := by
    have added : (({} : Document).add ["use_spaces"] (.int (hexPower zeros))) =
        some { table := [("use_spaces", .int (hexPower zeros))] } := rfl
    simp only [statement, named, bind, Except.bind, added]
    rfl
  have whole : statements ((hexEntry zeros).length + 1) {} (hexEntry zeros) =
      .ok { table := [("use_spaces", .int (hexPower zeros))] } := by
    rw [statements]
    split
    case h_1 shape => exact absurd shape (List.cons_ne_nil 'u' _)
    case h_2 rest shape => exact absurd (List.cons.inj shape).1 (by decide)
    case h_3 =>
      have visible : skipBlanks (hexEntry zeros) = hexEntry zeros := rfl
      simp only [visible, stated, bind, Except.bind]
      rfl
  unfold read
  rw [String.toList_ofList, whole]
  rfl
end Toml

def Workspace.withSettings (text : String) : Workspace :=
  { home := "/w", files := [(["gml_fmt.toml"], text.toUTF8)] }

/-- The one value in the settings file is bad and has four thousand hexadecimal digits. -/
def Workspace.longSetting : Workspace :=
  .withSettings (String.ofList (Toml.hexEntry 4000))

namespace SettingsFile

theorem first_withSettings (text : String) :
    First (.withSettings text) none ⟨"gml_fmt.toml", "/w/gml_fmt.toml", ["gml_fmt.toml"]⟩ :=
  have shown : "/w/gml_fmt.toml" = (pathIn { home := "/w", files := [] } none "gml_fmt.toml").toText := by
    decide +kernel
  ⟨⟨rfl, shown⟩, [], [".gml_fmt.toml", ".gml_fmt"], rfl, nofun⟩

theorem fatal_longSetting :
    Fatal Toml.read .longSetting ⟨"gml_fmt.toml", "/w/gml_fmt.toml", ["gml_fmt.toml"]⟩ .longInteger := by
  have stored : Workspace.longSetting.bytes? ["gml_fmt.toml"] =
      some (String.ofList (Toml.hexEntry 4000)).toUTF8 := rfl
  have unreturned : '\r' ∉ (String.ofList (Toml.hexEntry 4000)).toList := by
    rw [String.toList_ofList]
    exact Toml.unreturned_hexEntry 4000
  have denotes : Denotes Toml.read .longSetting ⟨"gml_fmt.toml", "/w/gml_fmt.toml", ["gml_fmt.toml"]⟩
      [("use_spaces", .int (Toml.hexPower 4000))] :=
    ⟨_, Workspace.reads_of_stored nofun stored unreturned, Toml.read_hex 4000⟩
  have long : (Value.int (Toml.hexPower 4000)).Long := by
    refine .int ?_
    rw [Int.natAbs_natCast]
    unfold Decimal.digitLimit Toml.hexPower
    decide +kernel
  have bad (number : Int) : Settings.keys.find? (fun key => ¬Settings.Sound [("use_spaces", .int number)] key) =
      some "use_spaces" := by
    simp [Settings.keys, Settings.Sound, Settings.Admits]
  exact .value denotes (bad _) rfl long

end SettingsFile

/-- A bad value that is too long to be shown brings the program down. -/
theorem ResolvedSettings.find_dies_of_long_integer :
    find Toml.read .longSetting none = .error .longInteger :=
  find_of_fatal (SettingsFile.first_withSettings _) SettingsFile.fatal_longSetting

end GmlLayout
