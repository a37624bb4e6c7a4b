/-!
Paths as they are written, and their place below the working directory. Empty parts and single dots
drop out when a path is read; double dots stay.
-/

namespace GmlLayout

structure Path where
  /-- What stands in front of the first part: nothing, or the slashes of an absolute path. -/
  root : String := ""
  parts : List String := []
deriving DecidableEq, Repr

namespace Path

/-- One slash in front, or exactly two, are kept; more count as one. -/
def rootOf : List Char → String
  | '/' :: '/' :: '/' :: _ => "/"
  | '/' :: '/' :: _ => "//"
  | '/' :: _ => "/"
  | _ => ""

/-- The parts between slashes, where `current` holds the part read so far, last character first. -/
def partsFrom (current : List Char) : List Char → List String
  | [] => [String.ofList current.reverse]
  | c :: rest =>
    if c = '/' then String.ofList current.reverse :: partsFrom [] rest else partsFrom (c :: current) rest

def ofText (text : String) : Path where
  root := rootOf text.toList
  parts := (partsFrom [] text.toList).filter fun part => part ≠ "" ∧ part ≠ "."

def toText (path : Path) : String :=
  if path.root = "" ∧ path.parts = [] then "." else path.root ++ "/".intercalate path.parts

def append (path : Path) (parts : List String) : Path :=
  { path with parts := path.parts ++ parts }

def isAbsolute (path : Path) : Bool :=
  path.root ≠ ""

end Path

/-- The parts of a path below the working directory, without dots. -/
abbrev Location := List String

namespace Location

/-- The order of locations: part by part, by code point, a directory before what lies in it. -/
def le : Location → Location → Bool
  | [], _ => true
  | _ :: _, [] => false
  | a :: as, b :: bs => if a = b then le as bs else decide (a < b)

end Location

end GmlLayout
