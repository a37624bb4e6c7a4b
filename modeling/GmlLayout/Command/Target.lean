import GmlLayout.Diagnostic.Crash
import GmlLayout.Diagnostic.Guidance

/-!
The files that a run formats: the one that is named, or all source files below a directory.
-/

namespace GmlLayout.Command

/-- A file to format: the name by which messages show it, and where it lies. -/
structure Target where
  shown : String
  location : Location
deriving DecidableEq, Repr

inductive TargetError where
  | missing (shown : String)
  /-- A single file was asked for and a directory was given. -/
  | directory (shown : String)
  /-- A directory was asked for and a file was given. -/
  | file (shown : String)
deriving DecidableEq, Repr

namespace TargetError

def guidance : TargetError → Guidance
  | .missing shown =>
    { what := "Filepath given does not exist."
      why := some s!"Nothing was found at {shown}."
      fix := some "Pass an existing .gml file with -f, or a project directory."
      sample := some "gml_fmt scripts/ or gml_fmt -f scripts/player.gml" }
  | .directory shown =>
    { what := "Passed -f or --file but gave a directory filepath."
      why := some "-f formats exactly one file."
      fix := some "Drop -f to format every .gml file below the directory."
      sample := some s!"gml_fmt {shown}" }
  | .file shown =>
    { what := "Did not pass -f but gave a filepath. Pass -f for files."
      why := some "Without -f the path is treated as a directory to walk."
      fix := some "Add -f to format a single file."
      sample := some s!"gml_fmt -f {shown}" }

end TargetError

def isSourceName (name : String) : Bool :=
  ".gml".toList.isSuffixOf name.toList

namespace Target

/-- The source files below the directory that `path` names. From above, those of the working directory
are found on the way down to it. -/
def below (workspace : Workspace) (path : Path) : Place → List Target
  | .above levels =>
    (workspace.filesBelow [] isSourceName).map fun location =>
      ⟨(path.append (workspace.wayDown levels ++ location)).toText, location⟩
  | .inside directory =>
    (workspace.filesBelow directory isSourceName).map fun location =>
      ⟨(path.append location).toText, directory ++ location⟩

/-- Why the search below a place brings the program down: it has to look at everything that is named like
a source file. -/
def crashBelow? (workspace : Workspace) (path : Path) (place : Place) : Option Crash :=
  let (directory, way) := match place with
    | .above levels => ([], workspace.wayDown levels)
    | .inside directory => (directory, [])
  ((workspace.entriesBelow directory).filter (·.getLast?.any isSourceName)).findSome? fun location =>
    (workspace.hidden location).map fun error =>
      .hidden error (path.append (way ++ location.drop directory.length)).toText

def collect (workspace : Workspace) (path : Path) (singleFile : Bool) :
    Except Crash (Except TargetError (List Target)) :=
  match workspace.find path with
  | .error error => .error (.hidden error path.toText)
  | .ok none => .ok (.error (.missing path.toText))
  | .ok (some (.directory place)) =>
    if singleFile then .ok (.error (.directory path.toText))
    else
      match crashBelow? workspace path place with
      | some crash => .error crash
      | none => .ok (.ok (below workspace path place))
  | .ok (some (.file location)) =>
    if singleFile then .ok (.ok [⟨path.toText, location⟩]) else .ok (.error (.file path.toText))

end Target

end GmlLayout.Command
