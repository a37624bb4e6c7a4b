/-!
JSON documents whose objects keep their members in the order given, and their text with two spaces of
indentation per level. Only quotation marks, backslashes and control characters are escaped.
-/

namespace GmlLayout

inductive Json where
  | null
  | bool (value : Bool)
  | int (value : Int)
  | text (value : String)
  | list (items : List Json)
  | object (members : List (String × Json))

namespace Json

def hexDigit (value : Nat) : Char :=
  Nat.digitChar (value % 16)

/-- A character inside a string: short escapes where JSON has them, a numeric one for the other control
characters, and all else as it is. -/
def escapeChar (c : Char) : List Char :=
  if c = '"' then ['\\', '"']
  else if c = '\\' then ['\\', '\\']
  else if c = '\n' then ['\\', 'n']
  else if c = '\r' then ['\\', 'r']
  else if c = '\t' then ['\\', 't']
  else if c = '\x08' then ['\\', 'b']
  else if c = '\x0c' then ['\\', 'f']
  else if c.toNat < 32 then ['\\', 'u', '0', '0', hexDigit (c.toNat / 16), hexDigit c.toNat]
  else [c]

def quote (content : String) : String :=
  "\"" ++ String.ofList (content.toList.flatMap escapeChar) ++ "\""

/-- A line break followed by the indentation of the given depth. -/
def lineBreak (depth : Nat) : String :=
  "\n" ++ String.ofList (List.replicate (2 * depth) ' ')

mutual

def renderAt (depth : Nat) : Json → String
  | .null => "null"
  | .bool true => "true"
  | .bool false => "false"
  | .int value => toString value
  | .text value => quote value
  | .list [] => "[]"
  | .list (first :: others) =>
    "[" ++ lineBreak (depth + 1) ++ renderAt (depth + 1) first ++ renderItems (depth + 1) others
      ++ lineBreak depth ++ "]"
  | .object [] => "\x7b\x7d"
  | .object ((key, value) :: others) =>
    "\x7b" ++ lineBreak (depth + 1) ++ quote key ++ ": " ++ renderAt (depth + 1) value
      ++ renderMembers (depth + 1) others ++ lineBreak depth ++ "\x7d"

/-- The items after the first, each behind a comma and on a line of its own. -/
def renderItems (depth : Nat) : List Json → String
  | [] => ""
  | item :: others => "," ++ lineBreak depth ++ renderAt depth item ++ renderItems depth others

/-- The members after the first, each behind a comma and on a line of its own. -/
def renderMembers (depth : Nat) : List (String × Json) → String
  | [] => ""
  | (key, value) :: others =>
    "," ++ lineBreak depth ++ quote key ++ ": " ++ renderAt depth value ++ renderMembers depth others

end

def render (document : Json) : String :=
  document.renderAt 0

end Json

end GmlLayout
