import GmlLayout.Workspace.Basic

/-!
What ends a run from outside: an error that the program does not report but dies of.
-/

namespace GmlLayout

namespace Decimal

/-- Integers of more digits are neither written nor read in decimal. -/
def digitLimit : Nat :=
  4300

end Decimal

inductive Crash where
  /-- An integer is too long to be written in decimal. -/
  | longInteger
  /-- A decimal integer of so many digits is too long to be read. -/
  | longNumeral (digits : Nat)
  /-- The system does not tell what lies at a path. -/
  | hidden (error : FileError) (shown : String)
deriving DecidableEq, Repr

namespace Crash

def message : Crash → String
  | .longInteger =>
    s!"Exceeds the limit ({Decimal.digitLimit} digits) for integer string conversion"
  | .longNumeral digits =>
    s!"Exceeds the limit ({Decimal.digitLimit} digits) for integer string conversion: "
      ++ s!"value has {digits} digits"
  | .hidden error shown => error.message shown

end Crash

end GmlLayout
