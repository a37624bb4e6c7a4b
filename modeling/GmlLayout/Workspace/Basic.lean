import GmlLayout.Text.Lines
import GmlLayout.Text.Printable
import GmlLayout.Workspace.Path

/-!
A working directory with its files, as far as a run can see it. Nothing lies outside of it but the
directories above, each of which holds the next one on the way down to the working directory.
-/

namespace GmlLayout

inductive FileError where
  | missing
  | denied
  | nameTooLong
  | notText
deriving DecidableEq, Repr

namespace FileError

/-- The error as messages show it for a file of the given name. -/
def message (error : FileError) (shown : String) : String :=
  match error with
  | .missing => "[Errno 2] No such file or directory: " ++ Text.quoted shown
  | .denied => "[Errno 13] Permission denied: " ++ Text.quoted shown
  | .nameTooLong => "[Errno 36] File name too long: " ++ Text.quoted shown
  | .notText => "<decode error>"

end FileError

structure Workspace where
  /-- The absolute name of the working directory. -/
  home : String
  files : List (Location × ByteArray)
  /-- Directories that exist even if no file lies in them. -/
  directories : List Location := []
  unreadable : List Location := []
  unwritable : List Location := []
  /-- Why the system does not tell what lies at a location, where it does not. -/
  hidden : Location → Option FileError := fun _ => none

/-- Where a path leads. -/
inductive Place where
  | inside (location : Location)
  /-- A directory so many levels above the working directory. -/
  | above (levels : Nat)
deriving DecidableEq, Repr

inductive Entry where
  | file (location : Location)
  | directory (place : Place)
deriving DecidableEq, Repr

namespace Workspace

def bytes? (workspace : Workspace) (location : Location) : Option ByteArray :=
  workspace.files.lookup location

def isFile (workspace : Workspace) (location : Location) : Bool :=
  (workspace.bytes? location).isSome

/-- The working directory itself, what was made as a directory, and whatever something lies in. -/
def isDirectory (workspace : Workspace) (location : Location) : Bool :=
  location.isEmpty || workspace.directories.any location.isPrefixOf
    || workspace.files.any fun file => location.isPrefixOf file.1 && location != file.1

/-- The names of the directories from the root down to the working directory. -/
def homeParts (workspace : Workspace) : List String :=
  (Path.ofText workspace.home).parts

/-- The directory so many levels above the working directory; nothing lies above the root. -/
def ancestor (workspace : Workspace) (levels : Nat) : Place :=
  match min levels workspace.homeParts.length with
  | 0 => .inside []
  | levels + 1 => .above (levels + 1)

/-- The names that lead down to the working directory from so many levels above it. -/
def wayDown (workspace : Workspace) (levels : Nat) : List String :=
  workspace.homeParts.drop (workspace.homeParts.length - levels)

/-- One part of a path further. Only a directory has parts below it. -/
def step (workspace : Workspace) (place : Place) (part : String) : Option Place :=
  match place with
  | .above levels =>
    if part = ".." then some (workspace.ancestor (levels + 1))
    else if (workspace.wayDown levels).head? = some part then some (workspace.ancestor (levels - 1))
    else none
  | .inside location =>
    if !workspace.isDirectory location then none
    else if part ≠ ".." then some (.inside (location ++ [part]))
    else if location.isEmpty then some (workspace.ancestor 1)
    else some (.inside location.dropLast)

def place? (workspace : Workspace) (path : Path) : Option Place :=
  path.parts.foldlM workspace.step
    (if path.isAbsolute then workspace.ancestor workspace.homeParts.length else .inside [])

def look (workspace : Workspace) (location : Location) : Except FileError (Option Entry) :=
  match workspace.hidden location with
  | some error => .error error
  | none =>
    if workspace.isFile location then .ok (some (.file location))
    else if workspace.isDirectory location then .ok (some (.directory (.inside location)))
    else .ok none

/-- The file or directory that a path names, if there is one and the system tells. -/
def find (workspace : Workspace) (path : Path) : Except FileError (Option Entry) :=
  match workspace.place? path with
  | none => .ok none
  | some (.above levels) => .ok (some (.directory (.above levels)))
  | some (.inside location) => workspace.look location

/-- The locations, relative to a directory, of the files below it whose names are accepted, in order. -/
def filesBelow (workspace : Workspace) (directory : Location) (accepted : String → Bool) :
    List Location :=
  (workspace.files.filterMap fun (location, _) =>
    if directory.isPrefixOf location && location != directory && location.getLast?.any accepted then
      some (location.drop directory.length)
    else none).mergeSort Location.le

/-- What lies below a directory: the files, the directories that were made, and those in between. -/
def entriesBelow (workspace : Workspace) (directory : Location) : List Location :=
  let ends := workspace.files.map Prod.fst ++ workspace.directories
  (ends.flatMap fun location => (List.range (location.length + 1)).map location.take).filter
    fun location => directory.isPrefixOf location && location != directory

/-- The text of a file: its bytes must be UTF-8, and all its line breaks become line feeds. -/
def readText (workspace : Workspace) (location : Location) : Except FileError String :=
  if workspace.unreadable.contains location then .error .denied
  else
    match workspace.bytes? location with
    | none => .error .missing
    | some bytes =>
      match String.fromUTF8? bytes with
      | none => .error .notText
      | some text => .ok (String.ofList (Text.unifyBreaks text.toList))

def replace (workspace : Workspace) (location : Location) (bytes : ByteArray) : Workspace :=
  { workspace with
    files := workspace.files.map fun file => if file.1 = location then (location, bytes) else file }

def writeText (workspace : Workspace) (location : Location) (text : String) :
    Except FileError Workspace :=
  if workspace.unwritable.contains location then .error .denied
  else .ok (workspace.replace location text.toUTF8)

end Workspace

end GmlLayout
