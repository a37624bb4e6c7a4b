import GmlLayout.Layout.Page

/-!
Laying out a slot of trivia. A line break that opens the slot may be dropped or stand for a run of them;
the first one that is written moves the indentation, or takes over the author's where that is allowed.
-/

namespace GmlLayout

/-- How the line breaks that open a slot are treated as it is read. -/
inductive Opening where
  /-- No line break has been read, and a run of them is to be collapsed. -/
  | pending
  /-- Inside the run that is being collapsed. -/
  | collapsing
  /-- Every line break counts. -/
  | over
deriving DecidableEq, Repr

namespace Token

/-- The warning about a token that stands in trivia and does not belong there. -/
def oddityWarning (token : Token) : String :=
  s!"Printing {token.describe} inside a comment and newline section"

end Token

namespace Page

/-- Starts the first new line of a slot. An author's indentation at least as deep as the line would get
anyway is kept if a frame is open. -/
def firstBreak (page : Page) (how : Instruction) (hint : Int) : Page :=
  if !page.frames.isEmpty && how.respect && hint ≥ page.indentationAfter how.move then
    let page := if page.blankLineAbove then page.dropLine else page.dropSpace.push .newline
    page.indentTo hint
  else
    page.newline how.move

def exemptIf (page : Page) (trailing : Bool) : Page :=
  if trailing then page.exempt else page

/-- The trivia that have a place in a slot but are no line breaks. -/
def writeRemark (page : Page) (how : Instruction) (token : Token) : Page :=
  (page.exemptIf how.trailing).ensureSpace.writeToken token
    (token.kind ≠ .lineComment ∧ token.kind ≠ .blockComment)

/-- A token that does not belong into trivia is written all the same, and noted. -/
def writeOddity (page : Page) (how : Instruction) (token : Token) : Page :=
  let page := { page with oddities := token :: page.oddities }
  (page.exemptIf how.trailing).writeToken token true

/-- The rest of a slot; `moved` says whether a line break has been written. -/
def triviaFrom (how : Instruction) :
    Opening → Bool → Trivia → Page → Bool × Page
  | _, moved, [], page => (moved, page)
  | opening, moved, token :: rest, page =>
    if token.isNewline then
      match opening with
      | .collapsing => triviaFrom how .collapsing moved rest page
      | .pending =>
        if how.leading = .none then triviaFrom how .collapsing moved rest page
        else if moved then triviaFrom how .collapsing true rest (page.newline .stay)
        else triviaFrom how .collapsing true rest (page.firstBreak how token.indentHint)
      | .over =>
        if moved then triviaFrom how .over true rest (page.newline .stay)
        else triviaFrom how .over true rest (page.firstBreak how token.indentHint)
    else if token.kind.isTrivia then
      triviaFrom how .over moved rest (page.writeRemark how token)
    else
      triviaFrom how (if opening = .collapsing then .over else opening) moved rest
        (page.writeOddity how token)

/-- Lays out a slot and says whether a line break was written. Without `respect`, line breaks alone are
passed over. -/
def trivia (page : Page) (slot : Trivia) (how : Instruction) : Bool × Page :=
  if slot.isEmpty || (!how.respect && slot.all Token.isNewline) then (false, page)
  else triviaFrom how (if how.leading = .all then .over else .pending) false slot page

end Page

end GmlLayout
