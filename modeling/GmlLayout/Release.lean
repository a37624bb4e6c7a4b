import GmlLayout.Text.Blank
import GmlLayout.Workspace.Basic

/-!
The version that the program reports.
-/

namespace GmlLayout.Release

def installed : String :=
  "0.1.0"

/-- The installed version if there is one; else the text of the first version file that exists, without
blanks around it; else a version that stands for none. -/
def version (installed : Option String) (workspace : Workspace) (candidates : List Location) :
    Except FileError String :=
  match installed.filter fun version => !version.isEmpty with
  | some version => .ok version
  | none => do
    match ← candidates.findM? fun location => return (← workspace.look location).isSome with
    | some location => return Text.trim (← workspace.readText location)
    | none => return "0.0.0"

end GmlLayout.Release
