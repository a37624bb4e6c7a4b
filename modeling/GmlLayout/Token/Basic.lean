import GmlLayout.Token.Kind

/-!
A token is a kind, what was read with it, and where it starts. Lines and columns count from zero.
-/

namespace GmlLayout

/-- What a token carries beside its kind: nothing, the text it was read from, or, for a line break,
how far the line after it is indented. -/
inductive Payload where
  | none
  | text (content : String)
  | hint (levels : Int)
deriving DecidableEq, Repr

structure Token where
  kind : Kind
  payload : Payload
  line : Nat
  column : Nat
deriving DecidableEq, Repr

/-- Comments, line breaks and region marks that stand in one slot between meaningful tokens. -/
abbrev Trivia := List Token

namespace Token

/-- The token as it is written: the text it carries, else its kind's fixed spelling. -/
def lexeme (token : Token) : String :=
  match token.payload with
  | .text content => content
  | _ => token.kind.fixedText

/-- How many levels the line after a line break is indented; zero for every other token. -/
def indentHint (token : Token) : Int :=
  match token.kind, token.payload with
  | .newline, .hint levels => levels
  | _, _ => 0

def isNewline (token : Token) : Bool :=
  token.kind = .newline

/-- The token as messages name it, with a position that counts from one. -/
def describe (token : Token) : String :=
  let shown := if token.isNewline then "\\n" else token.lexeme
  s!"'{shown}' ({token.kind.name}) at {token.line + 1}:{token.column + 1}"

end Token

end GmlLayout
