import GmlLayout.Grammar.Reader
import GmlLayout.Grammar.Tier

/-!
The grammar refers to itself in a few places only, and always after a token has been taken. Those
references are gathered here: a value of `Rules` answers them for inputs of at most `bound` tokens, and
the rules for one token more are written in terms of it.
-/

namespace GmlLayout

/-- The rules that the grammar refers back to, for inputs of at most `bound` tokens. -/
structure Rules where
  bound : Nat
  statement : Parse Stmt
  expression : Parse Expr
  assignment : Parse Expr
  ternary : Parse Expr
  binary : List Tier → Parse Expr
  unary : Parse Expr
  call : Parse Expr

namespace Rules

def empty : Rules where
  bound := 0
  statement := throw .unexpectedEnd
  expression := throw .unexpectedEnd
  assignment := throw .unexpectedEnd
  ternary := throw .unexpectedEnd
  binary _ := throw .unexpectedEnd
  unary := throw .unexpectedEnd
  call := throw .unexpectedEnd

end Rules

end GmlLayout
