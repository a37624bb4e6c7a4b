import GmlLayout.Diagnostic.Basic
import GmlLayout.Diagnostic.Guidance
import GmlLayout.Settings.Basic
import GmlLayout.Settings.Value

/-!
Checking a table of values for the settings it gives. Keys that are no settings are passed over; of
several bad values the first is reported, in the order in which the settings are declared.
-/

namespace GmlLayout

/-- A setting whose value is of the wrong sort or out of range. -/
structure InvalidSetting where
  key : String
  value : Value
  expected : String
  sample : String

namespace InvalidSetting

def diagnostic (invalid : InvalidSetting) : Except Crash Diagnostic := do
  let shown ← invalid.value.display
  return {
    message := Guidance.text
      { what := s!"Config key '{invalid.key}' has invalid value {shown}."
        why := some s!"'{invalid.key}' must be {invalid.expected}."
        fix := some s!"Set '{invalid.key}' to {invalid.expected} or remove it to use the default."
        sample := some invalid.sample }
    details := [("key", invalid.key)] }

end InvalidSetting

namespace Settings

def keys : List String :=
  ["use_spaces", "space_size", "newlines_at_end"]

/-- The value under `key` if it is a boolean, the default if the key is absent. -/
def boolean (table : List (String × Value)) (key : String) (default : Bool) (sample : String) :
    Except InvalidSetting Bool :=
  match table.lookup key with
  | none => .ok default
  | some (.bool value) => .ok value
  | some value => .error ⟨key, value, "a boolean", sample⟩

/-- The value under `key` if it is an integer of at least `least`, the default if the key is absent. -/
def integer (table : List (String × Value)) (key : String) (default least : Nat)
    (expected sample : String) : Except InvalidSetting Nat :=
  match table.lookup key with
  | none => .ok default
  | some (.int value) =>
    if (least : Int) ≤ value then .ok value.toNat else .error ⟨key, .int value, expected, sample⟩
  | some value => .error ⟨key, value, expected, sample⟩

def ofTable (table : List (String × Value)) : Except InvalidSetting Settings := do
  let defaults : Settings := {}
  let useSpaces ← boolean table "use_spaces" defaults.useSpaces "use_spaces = false"
  let spaceSize ← integer table "space_size" defaults.spaceSize 1 "a positive integer"
    "space_size = 2"
  let newlinesAtEnd ← integer table "newlines_at_end" defaults.newlinesAtEnd 0
    "a non-negative integer" "newlines_at_end = 1"
  return { useSpaces, spaceSize, newlinesAtEnd }

end Settings

end GmlLayout
