import GmlLayout.Grammar.Rules

/-!
Expressions. A repetition counts down from the number of tokens that can be left; when the count is
used up nothing is left to read, and the repetition ends as it does at the end of the input.
-/

namespace GmlLayout.Parse

/-- The entries of a comma-separated list, up to its closing token, which is not taken. -/
def entries (entry : Parse Expr) (closing : Kind) : Nat → Parse (Series Expr)
  | 0 => throw .unexpectedEnd
  | left + 1 => do
    if ← check (· = closing) then
      return ⟨[], true⟩
    let value ← entry
    let more ← accept (.symbol .comma)
    let trailing ← slot
    if more then
      let others ← entries entry closing left
      return ⟨⟨value, trailing⟩ :: others.items, others.endDelimited⟩
    else
      return ⟨[⟨value, trailing⟩], false⟩

/-- A comma-separated list with its closing token, which may be missing. -/
def series (rules : Rules) (closing : Kind) : Parse (Series Expr) := do
  let entries ← entries rules.expression closing rules.bound
  let _ ← accept closing
  return entries

/-- The further expressions of a grouping, up to and including its closing token. -/
def groupRest (expression : Parse Expr) : Nat → Parse (List Expr)
  | 0 => throw .unexpectedEnd
  | left + 1 => do
    if ← accept (.symbol .rightParen) then
      return []
    let expr ← expression
    let others ← groupRest expression left
    return expr :: others

def grouping (rules : Rules) : Parse Expr := do
  let afterOpen ← slot
  let first ← rules.expression
  let others ← groupRest rules.expression rules.bound
  let afterClose ← slot
  return .grouping afterOpen (first :: others) afterClose

def array (rules : Rules) : Parse Expr := do
  let afterOpen ← slot
  let elements ← series rules (.symbol .rightBracket)
  return .array afterOpen elements

/-- A token that starts no expression is kept as it is where that is allowed. -/
def unidentified (token : Token) : Parse Expr := do
  if (← get).allowUnidentified then
    let trailing ← slot
    return .unidentified token trailing
  else
    throw (.unexpectedToken token)

def primary (rules : Rules) : Parse Expr := do
  let token ← advance
  match token.kind with
  | .number | .string => return .literal token (← slot)
  | .numberStartDot => return .numberStartDot token (← slot)
  | .numberEndDot => return .numberEndDot token (← slot)
  | .identifier => return .identifier token (← slot)
  | .symbol .leftParen => grouping rules
  | .symbol .leftBracket => array rules
  | .newline =>
    setCanPair false
    return .newline
  | .lineComment =>
    setCanPair false
    return .lineComment token
  | .blockComment =>
    setCanPair false
    return .blockComment token
  | _ => unidentified token

/-- The indices of an access, up to its closing token, which is not taken. -/
def indices (expression : Parse Expr) : Nat → Parse (List (Trivia × Expr))
  | 0 => return []
  | left + 1 => do
    if ← sees (· ≠ .symbol .rightBracket) then
      let before ← slot
      let index ← expression
      if ← accept (.symbol .comma) then
        let others ← indices expression left
        return (before, index) :: others
      else
        return [(before, index)]
    else
      return []

def accesses (rules : Rules) : Nat → Expr → Parse Expr
  | 0, owner => return owner
  | left + 1, owner => do
    if ← sees (· = .symbol .dot) then
      let _ ← advance
      let afterDot ← slot
      let member ← rules.call
      let trailing ← slot
      accesses rules left (.dotted owner afterDot member trailing)
    else if ← sees Kind.isAccessor then
      let accessor ← advance
      let indices ← indices rules.expression rules.bound
      let _ ← accept (.symbol .rightBracket)
      let trailing ← slot
      accesses rules left (.access owner accessor indices trailing)
    else
      return owner

def arguments (rules : Rules) (callee : Expr) : Parse Expr := do
  if ← accept (.symbol .leftParen) then
    let afterOpen ← slot
    let arguments ← series rules (.symbol .rightParen)
    let trailing ← slot
    return .call callee afterOpen arguments trailing
  else
    return callee

def call (rules : Rules) : Parse Expr := do
  let callee ← primary rules
  let called ← arguments rules callee
  accesses rules rules.bound called

def stepped (rules : Rules) : Parse Expr := do
  let operand ← call rules
  if ← check Kind.isStep then
    let operator ← advance
    let afterOperator ← slot
    return .step operand operator afterOperator
  else
    return operand

def unary (rules : Rules) : Parse Expr := do
  if ← check Kind.isUnary then
    let operator ← advance
    let afterOperator ← slot
    let operand ← rules.unary
    return .unary operator afterOperator operand
  else
    stepped rules

/-- The operators and right operands that follow `left`, grouped to the left. -/
def chain (operand : Parse Expr) (joins : Kind → Bool) : Nat → Expr → Parse Expr
  | 0, left => return left
  | count + 1, left => do
    if ← sees joins then
      let operator ← advance
      let afterOperator ← slot
      let right ← operand
      chain operand joins count (.binary left operator afterOperator right)
    else
      return left

/-- An expression whose operators all belong to the given tiers, of which the first binds loosest. -/
def binary (rules : Rules) : List Tier → Parse Expr
  | [] => unary rules
  | tier :: tighter => do
    let left ← binary rules tighter
    match tier.side with
    | .left =>
      if (← get).canPair then
        chain (rules.binary tighter) tier.joins rules.bound left
      else
        return left
    | .right =>
      if ← check tier.joins then
        let operator ← advance
        let afterOperator ← slot
        let right ← rules.binary (tier :: tighter)
        return .binary left operator afterOperator right
      else
        return left

def ternary (rules : Rules) : Parse Expr := do
  let condition ← binary rules Tier.all
  if ← accept (.symbol .hook) then
    let afterHook ← slot
    let whenTrue ← rules.ternary
    let _ ← accept (.symbol .colon)
    let afterColon ← slot
    let whenFalse ← rules.ternary
    return .ternary condition afterHook whenTrue afterColon whenFalse
  else
    return condition

def functionRest (rules : Rules) : Parse Expr := do
  let afterKeyword ← slot
  let signature ← rules.expression
  let afterSignature ← slot
  let isConstructor ← accept (.keyword .constructorWord)
  let trailing ← slot
  return .function afterKeyword signature afterSignature isConstructor trailing

def lifetimeRest (rules : Rules) (operator : Token) : Parse Expr := do
  let afterOperator ← slot
  let operand ← rules.expression
  let trailing ← slot
  return .lifetime operator afterOperator operand trailing

/-- Completes an expression that turned out to be a word opening a longer form. -/
def completed (rules : Rules) (opening : Expr) : Parse Expr :=
  match opening with
  | .unidentified token _ =>
    match token.kind with
    | .keyword .functionWord => functionRest rules
    | .keyword .newWord | .keyword .deleteWord => lifetimeRest rules token
    | _ => return opening
  | _ => return opening

def assignment (rules : Rules) : Parse Expr := do
  let opening ← ternary rules
  let target ← completed rules opening
  if ← check Kind.isAssignment then
    let operator ← advance
    let afterOperator ← slot
    let value ← rules.assignment
    return .assign target operator afterOperator value
  else
    return target

def expression (rules : Rules) : Parse Expr := do
  setAllowUnidentified true
  let expr ← assignment rules
  setCanPair true
  setAllowUnidentified false
  return expr

end GmlLayout.Parse
