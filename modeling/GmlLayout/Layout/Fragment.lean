/-!
Formatted text is assembled from fragments: single blanks and pieces of text. Layout decisions look
back at the fragments written so far, so a buffer lists them last first. Looking back never reaches the
very first fragment, which always counts as written text.
-/

namespace GmlLayout

inductive Fragment where
  | space
  | tab
  | newline
  | text (content : String)
deriving DecidableEq, Repr

namespace Fragment

/-- A single blank character is that blank, anything else is text. -/
def ofText (content : String) : Fragment :=
  if content = " " then .space
  else if content = "\t" then .tab
  else if content = "\n" then .newline
  else .text content

def toText : Fragment → String
  | .space => " "
  | .tab => "\t"
  | .newline => "\n"
  | .text content => content

theorem toText_ofText (content : String) : (ofText content).toText = content := by
  unfold ofText
  split
  · simp [toText, *]
  · split
    · simp [toText, *]
    · split <;> simp [toText, *]

def isBlank : Fragment → Bool
  | .text _ => false
  | _ => true

def isLineComment : Fragment → Bool
  | .text content => "//".toList.isPrefixOf content.toList
  | _ => false

end Fragment

/-- Fragments, last first. -/
abbrev Buffer := List Fragment

namespace Buffer

def toText (buffer : Buffer) : String :=
  String.join (buffer.reverse.map Fragment.toText)

/-- Whether nothing but blanks has been written since the last line break. -/
def onBlankLine : Buffer → Bool
  | [] => true
  | [_] => false
  | last :: before :: rest =>
    match last with
    | .newline => true
    | .space | .tab => onBlankLine (before :: rest)
    | .text _ => false

/-- Whether two line breaks have been written with nothing but blanks after the first of them;
`broken` says that the later one has been passed already. -/
def blankLineAbove (broken : Bool) : Buffer → Bool
  | [] => false
  | [_] => false
  | last :: before :: rest =>
    match last with
    | .newline => if broken then true else blankLineAbove true (before :: rest)
    | .space | .tab => blankLineAbove broken (before :: rest)
    | .text _ => false

def dropLine : Buffer → Buffer
  | [] => []
  | [first] => [first]
  | last :: before :: rest =>
    if last = .newline then last :: before :: rest else dropLine (before :: rest)

/-- Drops the blanks at the end, and counts the line breaks among them. -/
def dropBlanks : Buffer → Nat × Buffer
  | [] => (0, [])
  | [first] => (0, [first])
  | last :: before :: rest =>
    if last.isBlank then
      ((dropBlanks (before :: rest)).1 + (if last = .newline then 1 else 0),
        (dropBlanks (before :: rest)).2)
    else (0, last :: before :: rest)

/-- Drops one space at the end, unless it is part of an indentation. -/
def dropSpace (buffer : Buffer) : Buffer :=
  match buffer with
  | .space :: rest => if buffer.onBlankLine then buffer else rest
  | _ => buffer

/-- Fragments that may stand between the last code and the end of a line. -/
def trailsCode (fragment : Fragment) : Bool :=
  fragment.isBlank || fragment.isLineComment

/-- The fragments up to the last one that is neither blank nor a line comment. -/
def code (buffer : Buffer) : Buffer :=
  buffer.dropWhile trailsCode

def afterCode (buffer : Buffer) : Buffer :=
  buffer.takeWhile trailsCode

theorem afterCode_append_code (buffer : Buffer) : buffer.afterCode ++ buffer.code = buffer :=
  List.takeWhile_append_dropWhile

end Buffer

end GmlLayout
