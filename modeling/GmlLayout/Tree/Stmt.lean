import GmlLayout.Tree.Expr

/-!
Statements. Each records whether a semicolon was written after it.
-/

namespace GmlLayout

/-- One declared variable, with the keyword when it is repeated in front of it. -/
structure Variable where
  target : Expr
  keyword : Option Token
  afterKeyword : Trivia

/-- A branch of a switch; the branch without a label is the default. -/
structure Case (α : Type) where
  label : Option Expr
  afterKeyword : Trivia
  afterColon : Trivia
  body : List α

namespace Case

def isDefault {α : Type} (branch : Case α) : Bool :=
  branch.label.isNone

end Case

/-- The forms of a single token that is a statement by itself. -/
inductive RemarkForm where
  | lineComment
  | blockComment
  | regionBegin
  | regionEnd
  | macroLine
deriving DecidableEq, Repr

namespace RemarkForm

def ofKind? : Kind → Option RemarkForm
  | .lineComment => some .lineComment
  | .blockComment => some .blockComment
  | .regionBegin => some .regionBegin
  | .regionEnd => some .regionEnd
  | .macroLine => some .macroLine
  | _ => none

def isComment : RemarkForm → Bool
  | .lineComment | .blockComment => true
  | _ => false

end RemarkForm

inductive Stmt where
  | declaration (keyword : Token) (afterKeyword : Trivia) (declared : Series Variable)
      (semicolon : Bool)
  | enumeration (afterKeyword : Trivia) (name : Expr) (afterOpen : Trivia) (members : Series Expr)
      (semicolon : Bool)
  | expression (expr : Expr) (semicolon : Bool)
  | block (afterOpen : Trivia) (body : List Stmt) (semicolon : Bool)
  | conditional (afterKeyword : Trivia) (condition : Expr) (whenTrue : Stmt) (between : Trivia)
      (afterElse : Trivia) (whenFalse : Option Stmt) (semicolon : Bool)
  /-- The loops `while`, `with` and `repeat`. -/
  | loop (keyword : Token) (afterKeyword : Trivia) (condition : Expr) (body : Stmt)
      (semicolon : Bool)
  | doUntil (afterKeyword : Trivia) (body : Stmt) (between : Trivia) (condition : Expr)
      (semicolon : Bool)
  | forLoop (afterKeyword : Trivia) (afterOpen : Trivia) (start : Option Stmt)
      (afterStart : Trivia) (condition : Option Expr) (afterCondition : Trivia)
      (increment : Option Expr) (afterIncrement : Trivia) (afterClose : Trivia) (body : Stmt)
      (semicolon : Bool)
  | switch (afterKeyword : Trivia) (subject : Expr) (afterOpen : Trivia) (cases : List (Case Stmt))
      (semicolon : Bool)
  | returning (value : Option Expr) (semicolon : Bool)
  | breaking (semicolon : Bool)
  | exiting (semicolon : Bool)
  | remark (form : RemarkForm) (token : Token)
  | define (afterKeyword : Trivia) (name : Expr) (body : List Stmt)

namespace Stmt

def hasSemicolon : Stmt → Bool
  | .declaration _ _ _ semicolon => semicolon
  | .enumeration _ _ _ _ semicolon => semicolon
  | .expression _ semicolon => semicolon
  | .block _ _ semicolon => semicolon
  | .conditional _ _ _ _ _ _ semicolon => semicolon
  | .loop _ _ _ _ semicolon => semicolon
  | .doUntil _ _ _ _ semicolon => semicolon
  | .forLoop _ _ _ _ _ _ _ _ _ _ semicolon => semicolon
  | .switch _ _ _ _ semicolon => semicolon
  | .returning _ semicolon => semicolon
  | .breaking semicolon => semicolon
  | .exiting semicolon => semicolon
  | .remark _ _ => false
  | .define _ _ _ => false

def isBlock : Stmt → Bool
  | .block .. => true
  | _ => false

def isConditional : Stmt → Bool
  | .conditional .. => true
  | _ => false

def isExpression : Stmt → Bool
  | .expression .. => true
  | _ => false

def isRemark : Stmt → Bool
  | .remark .. => true
  | _ => false

def defaultBranches? : Stmt → Option (List Bool)
  | .switch _ _ _ cases _ => some (cases.map Case.isDefault)
  | _ => none

end Stmt

end GmlLayout
