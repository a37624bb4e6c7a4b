import GmlLayout.Decimal.Notation
import GmlLayout.Diagnostic.Crash
import GmlLayout.Text.Printable

/-!
Values of a settings file before they are checked, and the text by which messages show them. There is no
such text for a value that holds an integer of too many digits.
-/

namespace GmlLayout

inductive Value where
  | null
  | bool (value : Bool)
  | int (value : Int)
  | float (value : Float)
  | text (value : String)
  | list (items : List Value)
  | table (entries : List (String × Value))
  /-- A value of another sort, such as a date, with its text in messages. -/
  | other (shown : String)

namespace Value

def displayInt (value : Int) : Except Crash String :=
  if value.natAbs < Nat.pow 10 Decimal.digitLimit then .ok (toString value) else .error .longInteger

mutual

def display : Value → Except Crash String
  | .null => .ok "None"
  | .bool true => .ok "True"
  | .bool false => .ok "False"
  | .int value => displayInt value
  | .float value => .ok (Decimal.ofFloat value)
  | .text value => .ok (Text.quoted value)
  | .list items => (displayItems items).map fun shown => "[" ++ ", ".intercalate shown ++ "]"
  | .table entries =>
    (displayEntries entries).map fun shown => "\x7b" ++ ", ".intercalate shown ++ "\x7d"
  | .other shown => .ok shown

def displayItems : List Value → Except Crash (List String)
  | [] => .ok []
  | item :: others => do return (← display item) :: (← displayItems others)

def displayEntries : List (String × Value) → Except Crash (List String)
  | [] => .ok []
  | (key, value) :: others => do
    return (Text.quoted key ++ ": " ++ (← display value)) :: (← displayEntries others)

end

end Value

end GmlLayout
