import GmlLayout.Log
import GmlLayout.Settings.Decode
import GmlLayout.Settings.Toml
import GmlLayout.Workspace.Basic

/-!
Finding the settings file of a directory and reading it. A file that cannot be used is passed over with
a warning, and the defaults apply; files of lower priority are not tried then. The search itself, the
decoder and the text of the warning can bring the program down instead. How a text is decoded is a
parameter, so that nothing here depends on how much of the format is read.
-/

namespace GmlLayout

inductive SettingsFault where
  | unreadable (error : FileError)
  | undecodable (fault : Toml.Fault)
  | invalid (setting : InvalidSetting)

namespace SettingsFault

/-- The fault as the warning about the file named `file`, shown as `shown`, tells it. -/
def message (fault : SettingsFault) (file shown : String) : Except Crash String :=
  match fault with
  | .unreadable error => .ok (error.message shown)
  | .undecodable .notToml => .ok <| Guidance.text
      { what := s!"{file} is not valid TOML."
        why := some "TOML parsing failed: <toml error>."
        fix := some s!"Fix the TOML syntax in {file}."
        sample := some "space_size = 2" }
  | .undecodable (.crash crash) => .error crash
  | .invalid setting => setting.diagnostic.map Diagnostic.message

end SettingsFault

/-- A settings file: its name, the path by which messages show it, and where it lies. -/
structure SettingsFile where
  name : String
  shown : String
  location : Location
deriving DecidableEq, Repr

namespace SettingsFile

/-- The names of settings files, the first of which that exists counts. -/
def names : List String :=
  ["gml_fmt.toml", ".gml_fmt.toml", ".gml_fmt"]

/-- The path by which a file of a directory is shown. Without a directory the working directory is
meant, which is shown by its absolute path. -/
def pathIn (workspace : Workspace) (directory : Option Path) (name : String) : Path :=
  (directory.getD (.ofText workspace.home)).append [name]

/-- What stands under a name in a directory, if the system tells. -/
def status (workspace : Workspace) (directory : Option Path) (name : String) :
    Except FileError (Option Entry) :=
  match directory with
  | none => workspace.look [name]
  | some directory => workspace.find (directory.append [name])

/-- The file of the given name in a directory, if it exists there. -/
def inDirectory? (workspace : Workspace) (directory : Option Path) (name : String) :
    Except Crash (Option SettingsFile) :=
  let shown := (pathIn workspace directory name).toText
  match status workspace directory name with
  | .error error => .error (.hidden error shown)
  | .ok (some (.file location)) => .ok (some ⟨name, shown, location⟩)
  | .ok _ => .ok none

def find? (workspace : Workspace) (directory : Option Path) : Except Crash (Option SettingsFile) :=
  names.findSomeM? (inDirectory? workspace directory)

def table (file : SettingsFile) (workspace : Workspace) (decode : Toml.Decoder) :
    Except SettingsFault Toml.Table := do
  let text ← (workspace.readText file.location).mapError .unreadable
  (decode text).mapError .undecodable

/-- The settings in the file, and the keys in it that are none, in order. -/
def load (file : SettingsFile) (workspace : Workspace) (decode : Toml.Decoder) :
    Except SettingsFault (Settings × List String) := do
  let table ← file.table workspace decode
  let settings ← (Settings.ofTable table).mapError .invalid
  let unknown := (table.map Prod.fst).filter fun key => key ∉ Settings.keys
  return (settings, unknown.mergeSort fun a b => a ≤ b)

end SettingsFile

/-- Settings with the path of the file they came from, if they are not the defaults. -/
structure ResolvedSettings where
  settings : Settings
  origin : Option String
  log : List LogRecord

namespace ResolvedSettings

def kind (resolved : ResolvedSettings) : String :=
  if resolved.origin.isSome then "toml" else "defaults"

def find (decode : Toml.Decoder) (workspace : Workspace) (directory : Option Path) :
    Except Crash ResolvedSettings := do
  match ← SettingsFile.find? workspace directory with
  | none => return ⟨{}, none, []⟩
  | some file =>
    match file.load workspace decode with
    | .error fault =>
      let reason ← fault.message file.name file.shown
      return ⟨{}, none,
        [⟨.warning, s!"Ignoring {file.shown} and using default settings: " ++ reason⟩]⟩
    | .ok (settings, unknown) =>
      return ⟨settings, some file.shown,
        (unknown.map fun key =>
          ⟨.debug, "Unknown config key " ++ Text.quoted key ++ " in " ++ file.shown⟩)
        ++ [⟨.debug, "Loaded config from " ++ file.shown⟩]⟩

end ResolvedSettings

end GmlLayout
