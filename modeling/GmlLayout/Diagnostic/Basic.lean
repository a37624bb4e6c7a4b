import GmlLayout.Text.Lines

/-!
A diagnostic is a message with the place in the source that it speaks of, if there is one. Lines and
columns count from one here. Shown with its source, it ends in the line it points at and a caret.
-/

namespace GmlLayout

structure Diagnostic where
  message : String
  line : Option Int := none
  column : Option Int := none
  details : List (String × String) := []
deriving DecidableEq

namespace Diagnostic

def detail? (diagnostic : Diagnostic) (key : String) : Option String :=
  diagnostic.details.lookup key

def withDefault (diagnostic : Diagnostic) (key value : String) : Diagnostic :=
  if (diagnostic.detail? key).isSome then diagnostic
  else { diagnostic with details := diagnostic.details ++ [(key, value)] }

def withDetail (diagnostic : Diagnostic) (key value : String) : Diagnostic :=
  { diagnostic with
    details := (diagnostic.details.filter fun entry => entry.1 ≠ key) ++ [(key, value)] }

def sourceLine? (diagnostic : Diagnostic) (source : String) : Option String := do
  let line ← diagnostic.line
  if line < 1 then none else (Text.lines source)[(line - 1).toNat]?

/-- How far the caret stands from the left: under the column, but never before the line's first
character nor beyond the place right after its last. -/
def caretOffset (column : Option Int) (shown : String) : Nat :=
  (max 1 (min (column.getD 1) (shown.length + 1)) - 1).toNat

def caretLine (column : Option Int) (shown : String) : String :=
  String.ofList (List.replicate (caretOffset column shown) ' ') ++ "^"

def fileLine (diagnostic : Diagnostic) : String :=
  match diagnostic.detail? "file" with
  | none => ""
  | some file => if file.isEmpty then "" else "File: " ++ file ++ "\n"

/-- The message, and below it the source line it points at with a caret, if the source has that
line. -/
def render (diagnostic : Diagnostic) (source : String) : String :=
  match diagnostic.sourceLine? source with
  | none => diagnostic.message
  | some shown =>
    diagnostic.fileLine ++ diagnostic.message ++ "\n" ++ shown ++ "\n"
      ++ caretLine diagnostic.column shown

end Diagnostic

end GmlLayout
