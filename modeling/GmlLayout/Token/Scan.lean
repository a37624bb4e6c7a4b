import GmlLayout.Token.Munch

/-!
From source text to tokens. Spaces, tabs and carriage returns between tokens are gaps and only move the
place where the next token starts; carriage returns do not even move its column.
-/

namespace GmlLayout

/-- A place in the source: what is still to read, how much has been read, and the line and column. -/
structure Cursor where
  rest : List Char
  pos : Nat
  line : Nat
  column : Nat

namespace Cursor

def start (source : List Char) : Cursor :=
  ⟨source, 0, 0, 0⟩

/-- Skips a gap; carriage returns do not move the column. -/
def skipGap (cursor : Cursor) : Cursor :=
  let gap := cursor.rest.takeWhile Munch.isGap
  { cursor with
    rest := cursor.rest.dropWhile Munch.isGap
    pos := cursor.pos + gap.length
    column := cursor.column + gap.countP (· != '\r') }

/-- The column after `text`, which counts from its last line break if it has one. -/
def columnAfter (column : Nat) (text : List Char) : Nat :=
  if '\n' ∈ text then (text.reverse.takeWhile (· != '\n')).length else column + text.length

def advance (cursor : Cursor) (munch : Munch) : Cursor where
  rest := munch.rest
  pos := cursor.pos + munch.text.length
  line := cursor.line + munch.text.count '\n'
  column := columnAfter cursor.column munch.text

/-- The next token, or none when only a gap is left, and the place after it. -/
def next (cursor : Cursor) : Option Token × Cursor :=
  let cursor := cursor.skipGap
  match cursor.rest with
  | [] => (none, cursor)
  | first :: source =>
    let munch := Munch.read first source
    (some ⟨munch.kind, munch.payload, cursor.line, cursor.column⟩, cursor.advance munch)

def tokens : Nat → Cursor → List Token
  | 0, _ => []
  | bound + 1, cursor =>
    match cursor.next with
    | (none, _) => []
    | (some token, after) => token :: tokens bound after

/-- The answers to the first `count` requests for a token and the places after each of them; a request
past the end is answered with none. -/
def steps : Nat → Cursor → List (Option Token × Cursor)
  | 0, _ => []
  | count + 1, cursor => cursor.next :: steps count cursor.next.2

end Cursor

/-- The tokens of a source text. Each takes at least one character, so the text's length bounds their
number. -/
def scan (source : String) : List Token :=
  (Cursor.start source.toList).tokens source.toList.length

end GmlLayout
