import GmlLayout.Proofs.Layout.StatementInk

/-!
A walk through a program as it is laid out. It follows the layout from statement to statement and notes the
page each time a statement has ended, and each time a last line is about to be torn out of it: in the place of
an enumeration's closing brace, and at the end of a `switch` branch.
-/

namespace GmlLayout

open Print

inductive Moment where
  | ended (page : Page)
  | tearing (page : Page)

namespace Moment

def page : Moment → Page
  | .ended page | .tearing page => page

def ended? : Moment → Option Page
  | .ended page => some page
  | .tearing _ => none

/-- The texts that are torn out. -/
def torn : Moment → List String
  | .ended _ => []
  | .tearing page => page.buffer.lineInk

end Moment

namespace Stmt

mutual

/-- What happens while a statement is laid out from the given page on, up to its end. -/
def moments (statement : Stmt) (page : Page) : List Moment :=
  (match statement with
  | .enumeration afterKeyword name afterOpen members _ =>
    [.tearing (after (enumerationMembers afterKeyword name afterOpen members) page)]
  | .block afterOpen body _ =>
    blockMoments (given (openBlock afterOpen body) page).2 body (after (openBlock afterOpen body) page)
  | .conditional afterKeyword test whenTrue _ _ none _ =>
    whenTrue.moments (after (openConditional afterKeyword test whenTrue.isBlock) page)
  | .conditional afterKeyword test whenTrue between afterElse (some whenFalse) _ =>
    let indented := given (openConditional afterKeyword test whenTrue.isBlock) page
    let opened := after (openConditional afterKeyword test whenTrue.isBlock) page
    let continues := whenFalse.isBlock || whenFalse.isConditional
    whenTrue.moments opened
      ++ whenFalse.moments (after (openElse between indented afterElse continues)
        (after (stmt whenTrue) opened))
  | .loop keyword afterKeyword test body _ =>
    body.moments (after (openLoop keyword afterKeyword test) page)
  | .doUntil afterKeyword body _ _ _ => body.moments (after (openDo afterKeyword) page)
  | .forLoop afterKeyword afterOpen none afterStart test afterCondition increment afterIncrement
      afterClose body _ =>
    let moved := given (openFor afterKeyword afterOpen) page
    let header := forHeader afterStart test afterCondition increment afterIncrement moved afterClose
    body.moments (after header (after (write ";" true) (after (openFor afterKeyword afterOpen) page)))
  | .forLoop afterKeyword afterOpen (some start) afterStart test afterCondition increment
      afterIncrement afterClose body _ =>
    let moved := given (openFor afterKeyword afterOpen) page
    let opened := after (openFor afterKeyword afterOpen) page
    let header := forHeader afterStart test afterCondition increment afterIncrement moved afterClose
    start.moments opened ++ body.moments (after header (after ensureSpace (after (stmt start) opened)))
  | .switch afterKeyword subject afterOpen cases _ =>
    branchMoments cases (after (openSwitch afterKeyword subject afterOpen) page)
  | .define afterKeyword name body => listMoments body (after (openDefine afterKeyword name) page)
  | .declaration .. | .expression .. | .returning .. | .breaking _ | .exiting _ | .remark .. => [])
    ++ [.ended (after (stmt statement) page)]

def listMoments : List Stmt → Page → List Moment
  | [], _ => []
  | first :: others, page => first.moments page ++ listMoments others (after (stmt first) page)

def blockMoments (onLines : Bool) : List Stmt → Page → List Moment
  | [], _ => []
  | first :: others, page =>
    let closed := after (closeBlockStatement onLines first.hasSemicolon) (after (stmt first) page)
    first.moments page ++ blockMoments onLines others closed

def branchMoments : List (Case Stmt) → Page → List Moment
  | [], _ => []
  | ⟨label, afterKeyword, afterColon, body⟩ :: others, page =>
    let saved := given (openBranch label afterKeyword afterColon) page
    let opened := after (openBranch label afterKeyword afterColon) page
    let filled := after (stmts body) opened
    listMoments body opened ++ [.tearing filled] ++ branchMoments others (after (closeBranch saved) filled)

end

attribute [simp] stmt stmts blockStmts branches

attribute [simp] moments listMoments blockMoments branchMoments

/-- The pages that the statements of a list, at whatever depth, end on. -/
def listPages (statements : List Stmt) (page : Page) : List Page :=
  (listMoments statements page).filterMap Moment.ended?

end Stmt

/-- The texts that are torn out while a program is laid out on an empty page. -/
def tornTexts (settings : Settings) (program : List Stmt) : List String :=
  (Stmt.listMoments program (Page.blank settings)).flatMap Moment.torn

end GmlLayout
