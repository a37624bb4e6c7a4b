import GmlLayout.Layout.Trivia
import GmlLayout.Tree.Stmt

/-!
Laying out expressions. Each construct writes its parts in the order of the source and the punctuation
between them; a space that turns out to be in the way is dropped again.
-/

namespace GmlLayout

abbrev Print := StateM Page

namespace Print

def write (content : String) (spaceAfter : Bool := false) : Print Unit :=
  modify fun page => page.write content spaceAfter

def writeToken (token : Token) (spaceAfter : Bool := false) : Print Unit :=
  modify fun page => page.writeToken token spaceAfter

/-- Lays out a slot of trivia and says whether a line break was written. -/
def trivia (slot : Trivia) (how : Instruction) : Print Bool :=
  modifyGet fun page => page.trivia slot how

def slot (slot : Trivia) (how : Instruction) : Print Unit :=
  modify fun page => (page.trivia slot how).2

def dropSpace : Print Unit :=
  modify Page.dropSpace

def dropBlanks : Print Unit :=
  modify fun page => page.dropBlanks.2

def ensureSpace : Print Unit :=
  modify Page.ensureSpace

def newline (move : Move) : Print Unit :=
  modify fun page => page.newline move

/-- Ends every expression: the trivia after it, and a line that is no longer just ended. -/
def closeExpression (trailing : Trivia) : Print Unit := do
  slot trailing .afterExpression
  modify fun page => page.setLineEnded false

/-- What follows an entry of a delimited list: the delimiter, the trivia, and a line break where one is
asked for between the entries or at the end. -/
def closeEntry (endDelimited breakBetween breakAtEnd isLast : Bool) (trailing : Trivia) :
    Print Unit := do
  dropSpace
  if !isLast || endDelimited then
    write "," true
  if trailing.isEmpty then
    if (if isLast then breakAtEnd else breakBetween) then
      newline .stay
  else
    let moved ← trivia trailing (.respecting .stay .all)
    if !moved && breakBetween then
      newline .stay

/-- Whether the closing parenthesis of a call is left to the block that follows: the last argument that
is a call of a word is a call of `function`. -/
def passesLambda (arguments : List (Item Expr)) : Bool :=
  (arguments.filterMap fun item => item.value.unidentifiedCallee?).getLast?.any
    fun token => token.kind = .keyword .functionWord

def closeCall (moved : Bool) (arguments : List (Item Expr)) : Print Unit := do
  dropBlanks
  if moved then
    newline .left
  if passesLambda arguments then
    modify fun page => page.requestBlock { noNewlineAfter := true }
  else
    write ")" true

/-- Steps back to the left, on the line at hand if nothing stands on it yet. -/
def stepBack : Print Unit :=
  modify fun page => if page.onBlankLine then page.dropLine.indent .left else page.newline .left

def closeGrouping (moved : Bool) (afterClose : Trivia) : Print Unit := do
  dropSpace
  if moved then
    stepBack
  write ")" true
  let request ← modifyGet Page.takeGroupRequest
  slot afterClose request.instruction

/-- Only the outermost access of a chain indents its continuation lines; says whether this is it. -/
def openChain : Print Bool :=
  modifyGet fun page => (page.chainIndents, { page with chainIndents := false })

def closeChain (outermost : Bool) : Print Unit :=
  if outermost then modify fun page => { page with chainIndents := true } else pure ()

mutual

def expr : Expr → Print Unit
  | .call callee afterOpen ⟨arguments, endDelimited⟩ trailing => do
    if (Expr.call callee afterOpen ⟨arguments, endDelimited⟩ trailing).isLambdaCall then
      modify Page.exempt
    expr callee
    dropSpace
    write "("
    let moved ← trivia afterOpen (.respecting .right .one)
    entries endDelimited false false arguments
    closeCall moved arguments
    closeExpression trailing
  | .function afterKeyword signature afterSignature isConstructor trailing => do
    write "function" true
    slot afterKeyword {}
    expr signature
    if !isConstructor then
      dropBlanks
    slot afterSignature {}
    if isConstructor then
      write "constructor" true
    modify Page.exempt
    closeExpression trailing
  | .lifetime operator afterOperator operand trailing => do
    writeToken operator true
    slot afterOperator {}
    expr operand
    dropBlanks
    closeExpression trailing
  | .binary left operator afterOperator right => do
    expr left
    ensureSpace
    writeToken operator true
    modify Page.openFrame
    slot afterOperator (.respecting .stay .all)
    expr right
    modify Page.closeFrame
    closeExpression []
  | .grouping afterOpen inner afterClose => do
    write "("
    let moved ← trivia afterOpen (.respecting .right .one)
    exprs inner
    closeGrouping moved afterClose
    closeExpression []
  | .array afterOpen ⟨elements, endDelimited⟩ => do
    write "["
    let moved ← trivia afterOpen (.respecting .right .one)
    entries endDelimited false false elements
    if moved then
      newline .left
    write "]"
    closeExpression []
  | .literal token after => do
    writeToken token true
    slot after { leading := .all }
    closeExpression []
  | .identifier token after => do
    writeToken token true
    slot after { leading := .all }
    closeExpression []
  | .numberStartDot token after => do
    write "0"
    writeToken token true
    slot after { leading := .all }
    closeExpression []
  | .numberEndDot token after => do
    writeToken token
    write "0" true
    slot after { leading := .all }
    closeExpression []
  | .unary operator afterOperator operand => do
    writeToken operator (operator.kind = .keyword .notWord)
    slot afterOperator { leading := .all }
    expr operand
    closeExpression []
  | .step operand operator afterOperator => do
    expr operand
    dropSpace
    writeToken operator true
    slot afterOperator { leading := .all }
    closeExpression []
  | .assign target operator afterOperator value => do
    expr target
    writeToken operator true
    slot afterOperator { leading := .all }
    expr value
    closeExpression []
  | .dotted owner afterDot member trailing => do
    expr owner
    dropSpace
    write "."
    modify Page.openFrame
    let outermost ← openChain
    slot afterDot (.respecting (if outermost then .right else .stay) .one)
    expr member
    modify Page.closeFrame
    closeChain outermost
    closeExpression trailing
  | .access collection accessor indices trailing => do
    expr collection
    dropSpace
    writeToken accessor (accessor.kind ≠ .symbol .leftBracket)
    indexList indices
    dropSpace
    write "]" true
    closeExpression trailing
  | .ternary condition afterHook whenTrue afterColon whenFalse => do
    expr condition
    write "?" true
    modify Page.openFrame
    slot afterHook { move := .right, leading := .all }
    expr whenTrue
    write ":" true
    let moved ← trivia afterColon { move := .right }
    expr whenFalse
    modify Page.closeFrame
    if moved then
      modify fun page => page.setIndentation .left
    closeExpression []
  | .newline => do
    modify Page.exempt
    if !(← get).lineEnded then
      newline .stay
    closeExpression []
  | .lineComment token => do
    modify Page.exempt
    writeToken token
    closeExpression []
  | .blockComment token => do
    modify Page.exempt
    writeToken token
    closeExpression []
  | .unidentified token trailing => do
    writeToken token true
    if token.kind = .keyword .constructorWord then
      modify Page.exempt
    closeExpression trailing

def exprs : List Expr → Print Unit
  | [] => pure ()
  | first :: others => do
    expr first
    exprs others

def entries (endDelimited breakBetween breakAtEnd : Bool) : List (Item Expr) → Print Unit
  | [] => pure ()
  | ⟨value, trailing⟩ :: others => do
    expr value
    closeEntry endDelimited breakBetween breakAtEnd others.isEmpty trailing
    entries endDelimited breakBetween breakAtEnd others

def indexList : List (Trivia × Expr) → Print Unit
  | [] => pure ()
  | (before, index) :: others => do
    modify Page.openFrame
    slot before { leading := .all }
    expr index
    modify Page.closeFrame
    dropSpace
    if !others.isEmpty then
      write "," true
    indexList others

end

end Print

end GmlLayout
