import GmlLayout.Layout.Expression

/-!
Laying out statements and whole programs. A statement that was written without a semicolon gets one,
unless something in it has claimed an exemption or it ends in a closing brace.
-/

namespace GmlLayout.Print

def semicolonIf (written : Bool) : Print Unit :=
  if written then modify Page.writeSemicolon else pure ()

/-- Writes a semicolon, and starts a new line if the source had none there; says whether it did. -/
def semicolonAndNewline (written : Bool) (move : Move) : Print Bool := do
  modify Page.writeSemicolon
  if written then
    return false
  newline move
  return true

def setLineEnded (ended : Bool) : Print Unit :=
  modify fun page => page.setLineEnded ended

/-- Uses up an exemption, if there is one, and says whether there was. -/
def takeExemption : Print Bool :=
  modifyGet fun page => (decide (0 < page.exemptions), { page with exemptions := page.exemptions - 1 })

/-- Ends a statement. A closed one, or one that is exempt, stays as it is; any other ends in a line
break, and with a semicolon unless its code ends in one or in a closing brace. -/
def terminate (closed : Bool) : Print Unit := do
  let exempt ← takeExemption
  if !closed && !exempt then
    let breaks ← modifyGet Page.dropBlanks
    let page ← get
    if !page.buffer.isEmpty then
      match page.buffer.code.head? with
      | some (.text ";") => modify fun page => page.newlines (max breaks 1)
      | some (.text "\x7d") => modify fun page => page.newlines breaks
      | _ => modify fun page => page.placeSemicolon.newlines (max breaks 1)

/-- A repeated keyword in front of a variable; says whether the list is indented after it. -/
def repeatedKeyword (declared : Variable) (indented : Bool) : Print Bool := do
  match declared.keyword with
  | none => return indented
  | some keyword =>
    writeToken keyword true
    let moved ← trivia declared.afterKeyword { move := if indented then .stay else .right }
    return indented || moved

/-- The trivia after a variable; the frame stays open once the list went on to a new line. -/
def variableTrivia (trailing : Trivia) (indented : Bool) : Print Bool := do
  if trailing.isEmpty then
    return indented
  modify Page.openFrame
  if ← trivia trailing (.respecting (if indented then .stay else .right) .all) then
    return true
  else
    modify Page.closeFrame
    return indented

/-- The variables of a declaration. Says whether the list has been indented and whether its end is left
open because of an exemption. -/
def variableList (endDelimited : Bool) : List (Item Variable) → Bool → Print (Bool × Bool)
  | [], indented => return (indented, false)
  | ⟨declared, trailing⟩ :: others, indented => do
    let indented ← repeatedKeyword declared indented
    modify Page.openFrame
    expr declared.target
    dropSpace
    modify Page.closeFrame
    let delimited := !others.isEmpty || endDelimited
    let openEnd := !delimited && decide (0 < (← get).exemptions)
    if delimited then
      write "," true
    else if !openEnd then
      modify Page.placeSemicolon
    let indented ← variableTrivia trailing indented
    if others.isEmpty then
      return (indented, openEnd)
    else
      variableList endDelimited others indented

def declaration (keyword : Token) (afterKeyword : Trivia) (declared : Series Variable)
    (written : Bool) : Print Unit := do
  writeToken keyword true
  let moved ← trivia afterKeyword { move := .right }
  let (indented, openEnd) ← variableList declared.endDelimited declared.items moved
  if declared.items.isEmpty then
    semicolonIf written
  if indented then
    stepBack
  let page ← get
  if !openEnd && !page.onBlankLine && page.forDepth == 0 then
    newline .stay
    setLineEnded true

def enumerationMembers (afterKeyword : Trivia) (name : Expr) (afterOpen : Trivia)
    (members : Series Expr) : Print Unit := do
  write "enum" true
  slot afterKeyword {}
  expr name
  write "\x7b" true
  let moved ← trivia afterOpen { move := .right }
  if !moved then
    newline .right
  dropSpace
  entries members.endDelimited true true members.items

/-- The closing brace takes the place of the last line. -/
def closeEnumeration (written : Bool) : Print Unit := do
  modify fun page => (page.setIndentation .left).dropLine.write "\x7d"
  semicolonIf written

def remark (form : RemarkForm) (token : Token) : Print Unit := do
  if form.isComment then
    if (← get).lineEnded then
      dropBlanks
      ensureSpace
      writeToken token
      newline .stay
    else
      writeToken token true
  else
    writeToken token
    dropSpace

/-- Opens a block; says what was asked of it and whether its statements stand on lines of their own. -/
def openBlock (afterOpen : Trivia) (body : List Stmt) : Print (BlockRequest × Bool) := do
  if !(← get).onBlankLine then
    ensureSpace
  let request ← modifyGet Page.takeBlockRequest
  write "\x7b"
  let mustIndent :=
    match body with
    | [] => request.mustIndent
    | [only] => request.mustIndent || !only.isExpression
    | _ => true
  let moved ← trivia afterOpen { move := .right }
  if mustIndent && !moved then
    newline .right
  let onLines := moved || mustIndent
  if !onLines then
    ensureSpace
  if body.length = 1 then
    modify Page.exempt
  return (request, onLines)

/-- After a statement of a block: one with a semicolon is followed by a new line. -/
def closeBlockStatement (onLines written : Bool) : Print Unit := do
  if onLines && written && !(← get).onBlankLine then
    newline .stay
    setLineEnded true

def closeBlock (request : BlockRequest) (onLines written : Bool) : Print Unit := do
  if onLines then
    dropBlanks
    newline .left
  else
    dropSpace
    if (← get).last? ≠ some (.text "\x7b") then
      ensureSpace
  write "\x7d"
  semicolonIf written
  if !request.noNewlineAfter then
    modify fun page => page.ensureNewline .stay
  setLineEnded true

/-- From `if` through the condition. Says whether the unbraced statement after it has been indented. -/
def openConditional (afterKeyword : Trivia) (condition : Expr) (hasBlock : Bool) : Print Bool := do
  write "if" true
  slot afterKeyword {}
  if hasBlock then
    modify fun page => page.requestBlock { noNewlineAfter := true }
  let before := (← get).indentation
  if !hasBlock && condition.isGrouping then
    modify fun page => page.requestGroup { move := some .right, respect := some true }
  expr condition
  return !hasBlock && (← get).indentation != before

def betweenBranches (between : Trivia) (indented : Bool) : Print Unit := do
  let move : Move := if indented then .left else .stay
  let moved ← trivia between { move := move, leading := .all, respect := true, trailing := true }
  if !moved then
    newline move

/-- From the first branch to the second; says whether the latter has been indented. One that `continues`,
a block or another `if`, stays on the line of its `else`. -/
def openElse (between : Trivia) (indented : Bool) (afterElse : Trivia) (continues : Bool) :
    Print Bool := do
  betweenBranches between indented
  if !indented then
    dropBlanks
  ensureSpace
  write "else" true
  if continues then
    slot afterElse {}
    return false
  else
    trivia afterElse (.respecting .right .one)

def closeElse (continues moved : Bool) : Print Unit := do
  if moved then
    modify fun page => page.setIndentation .left
  if !continues then
    setLineEnded true

def openLoop (keyword : Token) (afterKeyword : Trivia) (condition : Expr) : Print Unit := do
  writeToken keyword true
  slot afterKeyword {}
  expr condition

def openDo (afterKeyword : Trivia) : Print Unit := do
  write "do" true
  slot afterKeyword {}
  modify fun page => page.requestBlock { noNewlineAfter := true, mustIndent := true }

def closeDo (between : Trivia) (condition : Expr) (written : Bool) : Print Unit := do
  slot between { leading := .none }
  dropBlanks
  if (← get).last? = some (.text "\x7d") then
    ensureSpace
  else
    newline .stay
  write "until" true
  expr condition
  dropSpace
  let _ ← semicolonAndNewline written .stay

/-- Opens a `for` header; says whether its parts start on a new line. -/
def openFor (afterKeyword afterOpen : Trivia) : Print Bool := do
  write "for" true
  slot afterKeyword {}
  write "("
  modify Page.enterFor
  trivia afterOpen (.respecting .right .one)

def forHeader (afterStart : Trivia) (condition : Option Expr) (afterCondition : Trivia)
    (increment : Option Expr) (afterIncrement : Trivia) (moved : Bool) (afterClose : Trivia) :
    Print Unit := do
  slot afterStart {}
  match condition with
  | none => pure ()
  | some condition => expr condition
  dropSpace
  write ";" true
  slot afterCondition {}
  match increment with
  | none => dropSpace
  | some increment => expr increment
  let broken ← trivia afterIncrement {}
  if !broken then
    dropSpace
  if moved then
    newline .left
  write ")" true
  modify Page.leaveFor
  slot afterClose {}

def openSwitch (afterKeyword : Trivia) (subject : Expr) (afterOpen : Trivia) : Print Unit := do
  write "switch" true
  slot afterKeyword {}
  expr subject
  ensureSpace
  write "\x7b" true
  let moved ← trivia afterOpen { move := .right }
  if !moved then
    newline .right

/-- The label of a branch; gives the indentation to return to after it. -/
def openBranch (label : Option Expr) (afterKeyword afterColon : Trivia) : Print Int := do
  match label with
  | some label =>
    write "case" true
    slot afterKeyword {}
    expr label
  | none => write "default" true
  dropSpace
  write ":" true
  let saved := (← get).indentation
  let moved ← trivia afterColon { move := .right }
  if !moved then
    newline .right
  return saved

def closeBranch (saved : Int) : Print Unit :=
  modify fun page => page.dropLine.indentTo saved

def closeSwitch (written : Bool) : Print Unit := do
  dropBlanks
  newline .left
  write "\x7d"
  semicolonIf written

/-- A word that stands for a whole statement, with the value after it if there is one. -/
def jump (word : String) (value : Option Expr) (written : Bool) : Print Unit := do
  write word
  match value with
  | none => pure ()
  | some value =>
    write " "
    expr value
  let _ ← semicolonAndNewline written .stay

def openDefine (afterKeyword : Trivia) (name : Expr) : Print Unit := do
  write "#define" true
  slot afterKeyword {}
  expr name
  dropSpace
  newline .stay

def ended (closed : Bool) (written : Print Unit) : Print Unit := do
  written
  terminate closed

mutual

def stmt (statement : Stmt) : Print Unit :=
  ended (statement.hasSemicolon || statement.isRemark) <| match statement with
  | .declaration keyword afterKeyword declared written =>
    declaration keyword afterKeyword declared written
  | .enumeration afterKeyword name afterOpen members written => do
    enumerationMembers afterKeyword name afterOpen members
    closeEnumeration written
  | .expression value written => do
    expr value
    semicolonIf written
  | .block afterOpen body written => do
    let (request, onLines) ← openBlock afterOpen body
    blockStmts onLines body
    closeBlock request onLines written
  | .conditional afterKeyword test whenTrue between _ none written => do
    let indented ← openConditional afterKeyword test whenTrue.isBlock
    stmt whenTrue
    betweenBranches between indented
    semicolonIf written
  | .conditional afterKeyword test whenTrue between afterElse (some whenFalse) written => do
    let indented ← openConditional afterKeyword test whenTrue.isBlock
    stmt whenTrue
    let continues := whenFalse.isBlock || whenFalse.isConditional
    let moved ← openElse between indented afterElse continues
    stmt whenFalse
    closeElse continues moved
    semicolonIf written
  | .loop keyword afterKeyword test body written => do
    openLoop keyword afterKeyword test
    stmt body
    semicolonIf written
  | .doUntil afterKeyword body between test written => do
    openDo afterKeyword
    stmt body
    closeDo between test written
  | .forLoop afterKeyword afterOpen none afterStart test afterCondition increment afterIncrement
      afterClose body written => do
    let moved ← openFor afterKeyword afterOpen
    write ";" true
    forHeader afterStart test afterCondition increment afterIncrement moved afterClose
    stmt body
    semicolonIf written
  | .forLoop afterKeyword afterOpen (some start) afterStart test afterCondition increment
      afterIncrement afterClose body written => do
    let moved ← openFor afterKeyword afterOpen
    stmt start
    ensureSpace
    forHeader afterStart test afterCondition increment afterIncrement moved afterClose
    stmt body
    semicolonIf written
  | .switch afterKeyword subject afterOpen cases written => do
    openSwitch afterKeyword subject afterOpen
    branches cases
    closeSwitch written
  | .returning value written => jump "return" value written
  | .breaking written => jump "break" none written
  | .exiting written => jump "exit" none written
  | .remark form token => remark form token
  | .define afterKeyword name body => do
    openDefine afterKeyword name
    stmts body

def stmts : List Stmt → Print Unit
  | [] => pure ()
  | first :: others => do
    stmt first
    stmts others

def blockStmts (onLines : Bool) : List Stmt → Print Unit
  | [] => pure ()
  | first :: others => do
    stmt first
    closeBlockStatement onLines first.hasSemicolon
    blockStmts onLines others

def branches : List (Case Stmt) → Print Unit
  | [] => pure ()
  | ⟨label, afterKeyword, afterColon, body⟩ :: others => do
    let saved ← openBranch label afterKeyword afterColon
    stmts body
    closeBranch saved
    branches others

end

/-- Replaces the blanks at the end by the line breaks that the settings ask for. -/
def finish : Print Unit :=
  modify fun page =>
    let page := page.dropAllBlanks
    { page with buffer := List.replicate page.settings.newlinesAtEnd .newline ++ page.buffer }

def program (statements : List Stmt) : Print Unit := do
  stmts statements
  finish

end GmlLayout.Print
