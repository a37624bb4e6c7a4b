import GmlLayout.Token.Basic

/-!
Expressions as they are written: every token that has a text of its own, and every comment and line
break between tokens, has a place in the tree. Brackets, commas, dots and the words that a node implies
are not stored.
-/

namespace GmlLayout

/-- One entry of a delimited list, with the trivia that follows it and its delimiter. -/
structure Item (α : Type) where
  value : α
  trailing : Trivia

/-- A delimited list. `endDelimited` holds when the list stops right at its closing token, which is so
after a last delimiter and also for the empty list. -/
structure Series (α : Type) where
  items : List (Item α)
  endDelimited : Bool

inductive Expr where
  | call (callee : Expr) (afterOpen : Trivia) (arguments : Series Expr) (trailing : Trivia)
  | function (afterKeyword : Trivia) (signature : Expr) (afterSignature : Trivia)
      (isConstructor : Bool) (trailing : Trivia)
  /-- The words `new` and `delete` with their operand. -/
  | lifetime (operator : Token) (afterOperator : Trivia) (operand : Expr) (trailing : Trivia)
  | binary (left : Expr) (operator : Token) (afterOperator : Trivia) (right : Expr)
  | grouping (afterOpen : Trivia) (inner : List Expr) (afterClose : Trivia)
  | array (afterOpen : Trivia) (elements : Series Expr)
  | literal (token : Token) (after : Trivia)
  | numberStartDot (token : Token) (after : Trivia)
  | numberEndDot (token : Token) (after : Trivia)
  | unary (operator : Token) (afterOperator : Trivia) (operand : Expr)
  | step (operand : Expr) (operator : Token) (afterOperator : Trivia)
  | assign (target : Expr) (operator : Token) (afterOperator : Trivia) (value : Expr)
  | identifier (token : Token) (after : Trivia)
  | dotted (owner : Expr) (afterDot : Trivia) (member : Expr) (trailing : Trivia)
  | access (collection : Expr) (accessor : Token) (indices : List (Trivia × Expr))
      (trailing : Trivia)
  | ternary (condition : Expr) (afterHook : Trivia) (whenTrue : Expr) (afterColon : Trivia)
      (whenFalse : Expr)
  /-- A line break where an expression was due. -/
  | newline
  | lineComment (token : Token)
  | blockComment (token : Token)
  /-- A token that starts no expression, kept as it is. -/
  | unidentified (token : Token) (trailing : Trivia)

namespace Expr

def isGrouping : Expr → Bool
  | .grouping .. => true
  | _ => false

/-- What a declaration may introduce: a name, or an assignment. -/
def isDeclarable : Expr → Bool
  | .identifier .. => true
  | .assign .. => true
  | _ => false

/-- The token of the callee when a call's callee is a token that starts no expression. -/
def unidentifiedCallee? : Expr → Option Token
  | .call (.unidentified token _) .. => some token
  | _ => none

/-- A call of the word `function`: an anonymous function whose body follows as a block of its own. -/
def isLambdaCall (expr : Expr) : Bool :=
  expr.unidentifiedCallee?.any fun token => token.kind = .keyword .functionWord

end Expr

end GmlLayout
