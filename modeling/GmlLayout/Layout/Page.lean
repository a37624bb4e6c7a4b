import GmlLayout.Layout.Fragment
import GmlLayout.Layout.Instruction
import GmlLayout.Settings.Basic
import GmlLayout.Token.Basic

/-!
A page holds the fragments written so far and what the next ones depend on. Requests of a construct to
its parts, and the author's indentations, are stacks with the latest entry first.
-/

namespace GmlLayout

structure Page where
  settings : Settings
  buffer : Buffer := []
  indentation : Int := 0
  /-- The line was ended by a statement, so a line break that follows adds nothing. -/
  lineEnded : Bool := false
  blockRequests : List BlockRequest := []
  groupRequests : List GroupRequest := []
  /-- Indentations to return to. -/
  frames : List Int := []
  /-- Whether the next chain of member accesses indents its continuation lines. -/
  chainIndents : Bool := true
  /-- How many `for` headers are open. -/
  forDepth : Nat := 0
  /-- How many statements to come end without a semicolon of their own. -/
  exemptions : Nat := 0
  /-- Tokens met in trivia that do not belong there, latest first. -/
  oddities : List Token := []

namespace Page

def output (page : Page) : String :=
  page.buffer.toText

def push (page : Page) (fragment : Fragment) : Page :=
  { page with buffer := fragment :: page.buffer }

def write (page : Page) (content : String) (spaceAfter : Bool := false) : Page :=
  let page := page.push (.ofText content)
  if spaceAfter then page.push .space else page

def writeToken (page : Page) (token : Token) (spaceAfter : Bool := false) : Page :=
  page.write token.lexeme spaceAfter

def last? (page : Page) : Option Fragment :=
  page.buffer.head?

def onBlankLine (page : Page) : Bool :=
  page.buffer.onBlankLine

def blankLineAbove (page : Page) : Bool :=
  page.buffer.blankLineAbove false

def dropLine (page : Page) : Page :=
  { page with buffer := page.buffer.dropLine }

/-- Drops the blanks at the end, and counts the line breaks among them. -/
def dropBlanks (page : Page) : Nat × Page :=
  (page.buffer.dropBlanks.1, { page with buffer := page.buffer.dropBlanks.2 })

def dropSpace (page : Page) : Page :=
  { page with buffer := page.buffer.dropSpace }

/-- Drops all blanks at the end, the first fragment included. -/
def dropAllBlanks (page : Page) : Page :=
  { page with buffer := page.buffer.dropWhile Fragment.isBlank }

def ensureSpace (page : Page) : Page :=
  if page.last?.any Fragment.isBlank then page else page.push .space

def exempt (page : Page) : Page :=
  { page with exemptions := page.exemptions + 1 }

def setLineEnded (page : Page) (ended : Bool) : Page :=
  { page with lineEnded := ended }

def writeSemicolon (page : Page) : Page :=
  page.dropSpace.write ";" true

/-- Writes a semicolon where the code ends, in front of a line comment. -/
def placeSemicolon (page : Page) : Page :=
  if page.buffer.afterCode.isEmpty then page.writeSemicolon
  else { page with buffer := page.buffer.afterCode ++ .text ";" :: page.buffer.code }

/-- The indentation after a step; it does not go below zero by stepping left. -/
def indentationAfter (page : Page) : Move → Int
  | .right => page.indentation + 1
  | .stay => page.indentation
  | .left => max (page.indentation - 1) 0

def setIndentation (page : Page) (move : Move) : Page :=
  { page with indentation := page.indentationAfter move }

def unit (page : Page) : List Fragment :=
  if page.settings.useSpaces then List.replicate page.settings.spaceSize .space else [.tab]

def margin (page : Page) : List Fragment :=
  (List.replicate page.indentation.toNat page.unit).flatten

def writeMargin (page : Page) : Page :=
  { page with buffer := page.margin ++ page.buffer }

def indent (page : Page) (move : Move) : Page :=
  (page.setIndentation move).writeMargin

def indentTo (page : Page) (indentation : Int) : Page :=
  { page with indentation := indentation }.writeMargin

/-- Starts a new line after a step of the indentation. At the top of the page and below a blank line
nothing happens, and the indentation stays as it is. -/
def newline (page : Page) (move : Move) : Page :=
  if page.buffer.isEmpty || page.blankLineAbove then page
  else (page.dropSpace.push .newline).indent move

def newlines (page : Page) : Nat → Page
  | 0 => page
  | count + 1 => (page.newline .stay).newlines count

def ensureNewline (page : Page) (move : Move) : Page :=
  if page.last? = some .newline then page else page.newline move

def openFrame (page : Page) : Page :=
  { page with frames := page.indentation :: page.frames }

def closeFrame (page : Page) : Page :=
  match page.frames with
  | [] => page
  | indentation :: frames => { page with indentation := indentation, frames := frames }

def enterFor (page : Page) : Page :=
  { page with forDepth := page.forDepth + 1 }

def leaveFor (page : Page) : Page :=
  { page with forDepth := page.forDepth - 1 }

def requestBlock (page : Page) (request : BlockRequest) : Page :=
  { page with blockRequests := request :: page.blockRequests }

def takeBlockRequest (page : Page) : BlockRequest × Page :=
  match page.blockRequests with
  | [] => ({}, page)
  | request :: requests => (request, { page with blockRequests := requests })

def requestGroup (page : Page) (request : GroupRequest) : Page :=
  { page with groupRequests := request :: page.groupRequests }

def takeGroupRequest (page : Page) : GroupRequest × Page :=
  match page.groupRequests with
  | [] => ({}, page)
  | request :: requests => (request, { page with groupRequests := requests })

end Page

end GmlLayout
