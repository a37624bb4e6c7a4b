import GmlLayout.Grammar.Expression
import GmlLayout.Token.Scan

/-!
Statements and whole programs. Closing brackets and most separators may be missing; what is there is
taken.
-/

namespace GmlLayout.Parse

def semicolon : Parse Bool :=
  accept (.symbol .semicolon)

def expressionStatement (rules : Rules) : Parse Stmt := do
  let expr ← expression rules
  return .expression expr (← semicolon)

/-- Statements up to the end of the input or a token that ends the list, which is not taken. -/
def statementsUntil (statement : Parse Stmt) (ends : Kind → Bool) : Nat → Parse (List Stmt)
  | 0 => return []
  | left + 1 => do
    if ← sees (fun kind => !ends kind) then
      let stmt ← statement
      let others ← statementsUntil statement ends left
      return stmt :: others
    else
      return []

def isVariableKeyword : Kind → Bool
  | .keyword .varWord | .keyword .globalvarWord => true
  | _ => false

/-- The comma and the trivia after a declared variable, and the variables after it, which `others`
reads. -/
def variableEnd (declared : Variable) (others : Parse (Series Variable)) :
    Parse (Series Variable) := do
  let more ← accept (.symbol .comma)
  let trailing ← slot
  if more then
    let others ← others
    return ⟨⟨declared, trailing⟩ :: others.items, others.endDelimited⟩
  else
    return ⟨[⟨declared, trailing⟩], false⟩

/-- An expression that declares nothing ends the list and is kept for after the enclosing statement. -/
def notDeclared (expr : Expr) : Parse (Series Variable) := do
  postpone (.expression expr (← semicolon))
  return ⟨[], true⟩

/-- One declared variable and those after it, which `others` reads. -/
def variableThen (rules : Rules) (keyword : Option Token) (afterKeyword : Trivia)
    (others : Parse (Series Variable)) : Parse (Series Variable) := do
  let target ← rules.expression
  if target.isDeclarable then
    variableEnd ⟨target, keyword, afterKeyword⟩ others
  else
    notDeclared target

/-- The variables of a declaration, each of which may repeat the keyword. -/
def variableList (rules : Rules) : Nat → Parse (Series Variable)
  | 0 => return ⟨[], true⟩
  | left + 1 => do
    if ← check (· = .symbol .semicolon) then
      return ⟨[], true⟩
    if ← check isVariableKeyword then
      let keyword ← advance
      let afterKeyword ← slot
      variableThen rules (some keyword) afterKeyword (variableList rules left)
    else
      match ← peek with
      | none => return ⟨[], true⟩
      | some .identifier => variableThen rules none [] (variableList rules left)
      | some _ => return ⟨[], false⟩

def declaration (rules : Rules) : Parse Stmt := do
  let keyword ← advance
  let afterKeyword ← slot
  let declared ← variableList rules rules.bound
  return .declaration keyword afterKeyword declared (← semicolon)

def defineRest (rules : Rules) : Parse Stmt := do
  let afterKeyword ← slot
  let name ← rules.expression
  let body ← statementsUntil rules.statement (· = .define) rules.bound
  return .define afterKeyword name body

def blockRest (rules : Rules) : Parse Stmt := do
  let afterOpen ← slot
  let body ← statementsUntil rules.statement (· = .symbol .rightBrace) rules.bound
  let _ ← accept (.symbol .rightBrace)
  return .block afterOpen body (← semicolon)

def conditionalRest (rules : Rules) : Parse Stmt := do
  let afterKeyword ← slot
  let condition ← rules.expression
  let whenTrue ← rules.statement
  let between ← slot
  if ← accept (.keyword .elseWord) then
    let afterElse ← slot
    let whenFalse ← rules.statement
    return .conditional afterKeyword condition whenTrue between afterElse whenFalse (← semicolon)
  else
    return .conditional afterKeyword condition whenTrue between [] none (← semicolon)

def returnRest (rules : Rules) : Parse Stmt := do
  if ← check (· = .symbol .semicolon) then
    return .returning none (← semicolon)
  else
    let value ← rules.expression
    return .returning value (← semicolon)

def doUntilRest (rules : Rules) : Parse Stmt := do
  let afterKeyword ← slot
  let body ← rules.statement
  let between ← slot
  let _ ← accept (.keyword .untilWord)
  let condition ← rules.expression
  return .doUntil afterKeyword body between condition (← semicolon)

/-- What follows `while`, `with` or `repeat`. -/
def loopRest (rules : Rules) (keyword : Token) : Parse Stmt := do
  let afterKeyword ← slot
  let condition ← rules.expression
  let body ← rules.statement
  return .loop keyword afterKeyword condition body (← semicolon)

def endsBranch : Kind → Bool
  | .keyword .caseWord | .keyword .defaultWord | .symbol .rightBrace => true
  | _ => false

def branchRest (rules : Rules) (label : Option Expr) (afterKeyword : Trivia) :
    Parse (Case Stmt) := do
  let _ ← accept (.symbol .colon)
  let afterColon ← slot
  let body ← statementsUntil rules.statement endsBranch rules.bound
  return ⟨label, afterKeyword, afterColon, body⟩

def branch (rules : Rules) : Parse (Case Stmt) := do
  let token ← advance
  match token.kind with
  | .keyword .caseWord =>
    let afterKeyword ← slot
    let label ← rules.expression
    branchRest rules label afterKeyword
  | .keyword .defaultWord =>
    let afterKeyword ← slot
    branchRest rules none afterKeyword
  | _ => throw (.unknownInSwitch token)

/-- The branches of a switch, up to its closing brace, which is not taken. -/
def branches (rules : Rules) : Nat → Parse (List (Case Stmt))
  | 0 => return []
  | left + 1 => do
    if ← sees (· ≠ .symbol .rightBrace) then
      let first ← branch rules
      let others ← branches rules left
      return first :: others
    else
      return []

def switchRest (rules : Rules) : Parse Stmt := do
  let afterKeyword ← slot
  let subject ← rules.expression
  let _ ← accept (.symbol .leftBrace)
  let afterOpen ← slot
  let cases ← branches rules rules.bound
  let _ ← accept (.symbol .rightBrace)
  return .switch afterKeyword subject afterOpen cases (← semicolon)

def forStart (rules : Rules) : Parse (Option Stmt) := do
  if ← semicolon then
    return none
  if ← check (· = .keyword .varWord) then
    return some (← declaration rules)
  else
    let expr ← rules.expression
    return some (.expression expr (← semicolon))

def forCondition (rules : Rules) : Parse (Option Expr) := do
  if ← semicolon then
    return none
  else
    return some (← rules.expression)

def forIncrement (rules : Rules) : Parse (Option Expr) := do
  if ← check (· = .symbol .rightParen) then
    return none
  else
    return some (← rules.expression)

def forRest (rules : Rules) : Parse Stmt := do
  let afterKeyword ← slot
  let _ ← accept (.symbol .leftParen)
  let afterOpen ← slot
  let start ← forStart rules
  let afterStart ← slot
  let condition ← forCondition rules
  let _ ← semicolon
  let afterCondition ← slot
  let increment ← forIncrement rules
  let _ ← semicolon
  let afterIncrement ← slot
  let _ ← accept (.symbol .rightParen)
  let afterClose ← slot
  let body ← rules.statement
  return .forLoop afterKeyword afterOpen start afterStart condition afterCondition increment
    afterIncrement afterClose body (← semicolon)

def enumerationRest (rules : Rules) : Parse Stmt := do
  let afterKeyword ← slot
  let name ← rules.expression
  let _ ← accept (.symbol .leftBrace)
  let afterOpen ← slot
  let members ← series rules (.symbol .rightBrace)
  return .enumeration afterKeyword name afterOpen members (← semicolon)

/-- The rest of a statement that `token` has opened, or none if it opens no special form. -/
def opened (rules : Rules) (token : Token) : Option (Parse Stmt) :=
  match token.kind with
  | .define => some (defineRest rules)
  | .symbol .leftBrace => some (blockRest rules)
  | .keyword .enumWord => some (enumerationRest rules)
  | .keyword .ifWord => some (conditionalRest rules)
  | .keyword .returnWord => some (returnRest rules)
  | .keyword .breakWord => some (do return .breaking (← semicolon))
  | .keyword .exitWord => some (do return .exiting (← semicolon))
  | .keyword .doWord => some (doUntilRest rules)
  | .keyword .whileWord | .keyword .withWord | .keyword .repeatWord => some (loopRest rules token)
  | .keyword .switchWord => some (switchRest rules)
  | .keyword .forWord => some (forRest rules)
  | kind => (RemarkForm.ofKind? kind).map fun form => return .remark form token

def statement (rules : Rules) : Parse Stmt := do
  match (← get).rest.head? with
  | none => expressionStatement rules
  | some token =>
    if isVariableKeyword token.kind then
      declaration rules
    else
      match opened rules token with
      | some rest =>
        let _ ← advance
        rest
      | none => expressionStatement rules

end GmlLayout.Parse

namespace GmlLayout

namespace Rules

def next (rules : Rules) : Rules where
  bound := rules.bound + 1
  statement := Parse.statement rules
  expression := Parse.expression rules
  assignment := Parse.assignment rules
  ternary := Parse.ternary rules
  binary := Parse.binary rules
  unary := Parse.unary rules
  call := Parse.call rules

def upTo : Nat → Rules
  | 0 => empty
  | bound + 1 => (upTo bound).next

theorem bound_upTo (bound : Nat) : (upTo bound).bound = bound := by
  induction bound with
  | zero => rfl
  | succ bound ih => simp [upTo, next, ih]

end Rules

namespace Parse

/-- The statements of a program, each followed by those that were found inside it. -/
def program (statement : Parse Stmt) : Nat → Parse (List Stmt)
  | 0 => return []
  | left + 1 => do
    if ← sees (fun _ => true) then
      setCanPair true
      let stmt ← statement
      let leftovers ← takeLeftovers
      let others ← program statement left
      return stmt :: (leftovers ++ others)
    else
      return []

end Parse

def parseTokens (tokens : List Token) : EStateM.Result ParseError Reader (List Stmt) :=
  (Parse.program (Rules.upTo tokens.length).statement tokens.length).run { rest := tokens }

def parse (source : String) : Except ParseError (List Stmt) :=
  match parseTokens (scan source) with
  | .ok program _ => .ok program
  | .error cause _ => .error cause

end GmlLayout
