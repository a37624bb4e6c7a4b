import GmlLayout.Settings.Value

/-!
Reading the part of TOML that settings files use: comments, bare, quoted and dotted keys, booleans,
integers in four bases, floats, strings on one line, arrays, inline tables and section headers. Dates,
strings of several lines and arrays of tables are refused. Lines end in a line feed. Each reader takes the
text from where it stands and gives what it read with the rest.
-/

namespace GmlLayout.Toml

abbrev Table := List (String × Value)

inductive Fault where
  | notToml
  /-- Reading a value brings the program down. -/
  | crash (crash : Crash)
deriving DecidableEq, Repr

abbrev Decoder := String → Except Fault Table

abbrev Read (α : Type) := List Char → Option (α × List Char)

abbrev ReadValue (α : Type) := List Char → Except Fault (α × List Char)

def orRefuse {α : Type} : Option α → Except Fault α
  | some found => .ok found
  | none => .error .notToml

def isBlank (c : Char) : Bool :=
  c == ' ' || c == '\t'

def isControl (c : Char) : Bool :=
  (c.toNat < 32 && c != '\t') || c.toNat == 127

def skipBlanks (text : List Char) : List Char :=
  text.dropWhile isBlank

/-- Skips a comment up to the end of its line, if one starts here. -/
def skipComment (text : List Char) : Option (List Char) :=
  match text with
  | '#' :: comment =>
    match comment.dropWhile fun c => !isControl c with
    | [] => some []
    | '\n' :: rest => some ('\n' :: rest)
    | _ => none
  | _ => some text

/-- Skips blanks, line breaks and comments between the items of an array. -/
def skipFiller (inComment : Bool) : List Char → Option (List Char)
  | [] => some []
  | c :: rest =>
    if c = '\n' then skipFiller false rest
    else if inComment then if isControl c then none else skipFiller true rest
    else if isBlank c then skipFiller false rest
    else if c = '#' then skipFiller true rest
    else some (c :: rest)

def hexValue? (c : Char) : Option Nat :=
  if c.isDigit then some (c.toNat - '0'.toNat)
  else if 'a' ≤ c ∧ c ≤ 'f' then some (c.toNat - 'a'.toNat + 10)
  else if 'A' ≤ c ∧ c ≤ 'F' then some (c.toNat - 'A'.toNat + 10)
  else none

def charOfHex? (digits : List Char) : Option Char := do
  let values ← digits.mapM hexValue?
  let code := values.foldl (fun code value => 16 * code + value) 0
  if code.isValidChar then some (Char.ofNat code) else none

def simpleEscape? (c : Char) : Option Char :=
  [('b', '\x08'), ('t', '\t'), ('n', '\n'), ('f', '\x0c'), ('r', '\r'), ('"', '"'),
    ('\\', '\\')].lookup c

def basicString : Read (List Char)
  | [] => none
  | '"' :: rest => some ([], rest)
  | '\\' :: 'u' :: a :: b :: c :: d :: rest => do
    let escaped ← charOfHex? [a, b, c, d]
    let (content, rest) ← basicString rest
    return (escaped :: content, rest)
  | '\\' :: 'U' :: a :: b :: c :: d :: e :: f :: g :: h :: rest => do
    let escaped ← charOfHex? [a, b, c, d, e, f, g, h]
    let (content, rest) ← basicString rest
    return (escaped :: content, rest)
  | '\\' :: c :: rest => do
    let escaped ← simpleEscape? c
    let (content, rest) ← basicString rest
    return (escaped :: content, rest)
  | c :: rest => do
    if c = '\\' ∨ isControl c then none
    let (content, rest) ← basicString rest
    return (c :: content, rest)

def literalString : Read (List Char)
  | [] => none
  | c :: rest =>
    if c = '\'' then some ([], rest)
    else if isControl c then none
    else (literalString rest).map fun (content, rest) => (c :: content, rest)

def isBareKeyChar (c : Char) : Bool :=
  c.isAlphanum || c == '-' || c == '_'

def simpleKey : Read String
  | '"' :: rest => (basicString rest).map fun (name, rest) => (String.ofList name, rest)
  | '\'' :: rest => (literalString rest).map fun (name, rest) => (String.ofList name, rest)
  | text =>
    let name := text.takeWhile isBareKeyChar
    if name.isEmpty then none else some (String.ofList name, text.dropWhile isBareKeyChar)

def key : Nat → Read (List String)
  | 0, _ => none
  | bound + 1, text => do
    let (name, rest) ← simpleKey text
    match skipBlanks rest with
    | '.' :: rest =>
      let (names, rest) ← key bound (skipBlanks rest)
      return (name :: names, rest)
    | rest => return ([name], rest)

/-- Further digits; an underscore may stand between two of them. -/
def moreDigits (isDigit : Char → Bool) : List Char → List Char × List Char
  | '_' :: c :: rest =>
    if isDigit c then
      let (found, rest) := moreDigits isDigit rest
      (c :: found, rest)
    else ([], '_' :: c :: rest)
  | c :: rest =>
    if isDigit c then
      let (found, rest) := moreDigits isDigit rest
      (c :: found, rest)
    else ([], c :: rest)
  | [] => ([], [])

def digits (isDigit : Char → Bool) : Read (List Char)
  | c :: rest =>
    if isDigit c then
      let (found, rest) := moreDigits isDigit rest
      some (c :: found, rest)
    else none
  | [] => none

def natOfDigits (base : Nat) (digits : List Char) : Nat :=
  digits.foldl (fun value c => base * value + (hexValue? c).getD 0) 0

/-- An integer in another base, after its leading zero and the letter that names the base. -/
def basedInteger (base : Nat) (text : List Char) : Option (Value × List Char) := do
  let (found, rest) ← digits (fun c => (hexValue? c).any (· < base)) text
  return (.int (natOfDigits base found), rest)

/-- The part of a decimal before its point: a lone zero, or digits that do not start with one. -/
def wholePart : Read (List Char)
  | '0' :: rest => some (['0'], rest)
  | text => digits Char.isDigit text

/-- The part of a decimal after its point; empty if there is none. -/
def fractionPart (text : List Char) : List Char × List Char :=
  match text with
  | '.' :: rest => (digits Char.isDigit rest).getD ([], text)
  | _ => ([], text)

def exponentPart (text : List Char) : Option Int × List Char :=
  let read (sign : Int) (rest : List Char) : Option Int × List Char :=
    match digits Char.isDigit rest with
    | some (found, rest) => (some (sign * natOfDigits 10 found), rest)
    | none => (none, text)
  match text with
  | c :: rest =>
    if c = 'e' ∨ c = 'E' then
      match rest with
      | '-' :: rest => read (-1) rest
      | '+' :: rest => read 1 rest
      | _ => read 1 rest
    else (none, text)
  | [] => (none, [])

def nearestFloat (mantissa : Nat) (exponent : Int) : Float :=
  Float.ofScientific mantissa (exponent < 0) exponent.natAbs

def decimal (negative : Bool) : ReadValue Value := fun text => do
  let (whole, rest) ← orRefuse (wholePart text)
  let (fraction, rest) := fractionPart rest
  let (exponent, rest) := exponentPart rest
  if fraction.isEmpty && exponent.isNone then
    if Decimal.digitLimit < whole.length then
      throw (.crash (.longNumeral whole.length))
    let value : Int := natOfDigits 10 whole
    return (.int (if negative then -value else value), rest)
  else
    let size := nearestFloat (natOfDigits 10 (whole ++ fraction))
      (exponent.getD 0 - fraction.length)
    return (.float (if negative then -size else size), rest)

def signed (negative : Bool) : ReadValue Value := fun text =>
  let infinity : Float := 1.0 / 0.0
  match text with
  | 'i' :: 'n' :: 'f' :: rest => .ok (.float (if negative then -infinity else infinity), rest)
  | 'n' :: 'a' :: 'n' :: rest => .ok (.float (0.0 / 0.0), rest)
  | _ => decimal negative text

def number : ReadValue Value := fun text =>
  let based (base : Nat) (rest : List Char) : Except Fault (Value × List Char) :=
    match basedInteger base rest with
    | some found => .ok found
    | none => signed false text
  match text with
  | '0' :: 'x' :: rest => based 16 rest
  | '0' :: 'o' :: rest => based 8 rest
  | '0' :: 'b' :: rest => based 2 rest
  | '+' :: rest => signed false rest
  | '-' :: rest => signed true rest
  | text => signed false text

/-- The items of an array of at most `bound` items, up to and including its closing bracket. -/
def arrayItems (item : ReadValue Value) : Nat → ReadValue (List Value)
  | 0, _ => .error .notToml
  | bound + 1, text => do
    match ← orRefuse (skipFiller false text) with
    | ']' :: rest => return ([], rest)
    | rest =>
      let (first, rest) ← item rest
      match ← orRefuse (skipFiller false rest) with
      | ']' :: rest => return ([first], rest)
      | ',' :: rest =>
        let (others, rest) ← arrayItems item bound rest
        return (first :: others, rest)
      | _ => .error .notToml

/-- Puts a value under a dotted key; fails if a value stands there or on the way. -/
def insert (table : Table) : List String → Value → Option Table
  | [], _ => none
  | [name], value => if (table.lookup name).isSome then none else some (table ++ [(name, value)])
  | name :: names, value =>
    match table.lookup name with
    | none => (insert [] names value).map fun inner => table ++ [(name, .table inner)]
    | some (.table inner) =>
      (insert inner names value).map fun inner =>
        table.map fun entry => if entry.1 = name then (name, .table inner) else entry
    | some _ => none

def entry (item : ReadValue Value) : ReadValue (List String × Value) := fun text => do
  let (names, rest) ← orRefuse (key text.length text)
  match rest with
  | '=' :: rest =>
    let (value, rest) ← item (skipBlanks rest)
    return ((names, value), rest)
  | _ => .error .notToml

/-- The entries of an inline table of at most `bound` entries, up to and including its closing brace. -/
def inlineEntries (item : ReadValue Value) : Nat → Table → ReadValue Table
  | 0, _, _ => .error .notToml
  | bound + 1, table, text => do
    let ((names, value), rest) ← entry item (skipBlanks text)
    let table ← orRefuse (insert table names value)
    match skipBlanks rest with
    | '\x7d' :: rest => return (table, rest)
    | ',' :: rest => inlineEntries item bound table rest
    | _ => .error .notToml

/-- A value whose arrays and tables are nested less than `bound` deep. -/
def value : Nat → ReadValue Value
  | 0, _ => .error .notToml
  | bound + 1, text =>
    match text with
    | '"' :: rest => do
      let (content, rest) ← orRefuse (basicString rest)
      return (.text (String.ofList content), rest)
    | '\'' :: rest => do
      let (content, rest) ← orRefuse (literalString rest)
      return (.text (String.ofList content), rest)
    | 't' :: 'r' :: 'u' :: 'e' :: rest => .ok (.bool true, rest)
    | 'f' :: 'a' :: 'l' :: 's' :: 'e' :: rest => .ok (.bool false, rest)
    | '[' :: rest => do
      let (items, rest) ← arrayItems (value bound) text.length rest
      return (.list items, rest)
    | '\x7b' :: rest =>
      match skipBlanks rest with
      | '\x7d' :: rest => .ok (.table [], rest)
      | rest => do
        let (table, rest) ← inlineEntries (value bound) text.length [] rest
        return (.table table, rest)
    | _ => number text

def isTable (table : Table) : List String → Bool
  | [] => true
  | name :: names =>
    match table.lookup name with
    | some (.table inner) => isTable inner names
    | _ => false

/-- A document as far as it has been read: its table, the section that entries go to, and the sections
opened so far. -/
structure Document where
  table : Table := []
  scope : List String := []
  opened : List (List String) := []

namespace Document

def openSection (document : Document) (names : List String) : Option Document := do
  if names ∈ document.opened then none
  let table := (insert document.table names (.table [])).getD document.table
  if isTable table names then
    return { table := table, scope := names, opened := names :: document.opened }
  else none

def add (document : Document) (names : List String) (value : Value) : Option Document := do
  let table ← insert document.table (document.scope ++ names) value
  return { document with table := table }

end Document

/-- One statement: a section header, an entry, or nothing in front of a comment. -/
def statement (document : Document) : ReadValue Document := fun text =>
  match text with
  | '#' :: _ => .ok (document, text)
  | '[' :: rest => do
    let (names, rest) ← orRefuse (key rest.length (skipBlanks rest))
    match rest with
    | ']' :: rest => return (← orRefuse (document.openSection names), rest)
    | _ => .error .notToml
  | _ => do
    let ((names, value), rest) ← entry (value text.length) text
    return (← orRefuse (document.add names value), rest)

/-- The statements of a document, at most `bound` lines of them. -/
def statements : Nat → Document → List Char → Except Fault Document
  | 0, _, _ => .error .notToml
  | bound + 1, document, text =>
    match skipBlanks text with
    | [] => .ok document
    | '\n' :: rest => statements bound document rest
    | text => do
      let (document, rest) ← statement document text
      match ← orRefuse (skipComment (skipBlanks rest)) with
      | [] => return document
      | '\n' :: rest => statements bound document rest
      | _ => .error .notToml

def read : Decoder := fun text =>
  (statements (text.toList.length + 1) {} text.toList).map Document.table

end GmlLayout.Toml
