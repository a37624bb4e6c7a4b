import GmlLayout.Proofs.Layout.Exemptions

/-!
Texts that take up the rest of their line: line comments, region marks and macros. A tree shelters them
if the layout cannot put anything else behind them on their line. Nearly everywhere it starts a new line
there; what is asked of a tree concerns the places where it takes line breaks back, where it adds a
semicolon, and where it relies on a line break of the source.
-/

namespace GmlLayout

def lineBoundOpenings : List String :=
  ["//", "#region", "#endregion", "#macro"]

def isLineBound (text : String) : Bool :=
  lineBoundOpenings.any fun opening => opening.toList.isPrefixOf text.toList

def Token.isLineBound (token : Token) : Bool :=
  GmlLayout.isLineBound token.lexeme

/-- What a statement itself writes. Its semicolon may be added, so semicolons are left out. -/
def isOwn (text : String) : Bool :=
  text ≠ ";"

def isCode (text : String) : Bool :=
  !"//".toList.isPrefixOf text.toList

def isOwnCode (text : String) : Bool :=
  isOwn text && isCode text

def endsOpen (keep : String → Bool) (leaves : List Leaf) : Bool :=
  (keptInk keep leaves).getLast?.any fun text => !isLineBound text

/-- Behind each token of a slot that takes up its line, the slot goes on with a line break. -/
def slotSheltered : Trivia → Bool
  | [] => true
  | [token] => !token.isLineBound
  | token :: next :: rest =>
    (!token.isLineBound || (token.kind.isTrivia && next.isNewline)) && slotSheltered (next :: rest)

namespace Expr

mutual

/-- No token of the expression itself takes up its line, and neither does what stands last in front of a
closing parenthesis, behind the signature of a function or behind the operand of `new` or `delete`: there
the line breaks are taken back. A call that opens with a line break starts a new line for its
parenthesis. -/
def sheltered : Expr → Bool
  | .call callee afterOpen ⟨arguments, endDelimited⟩ trailing =>
    callee.sheltered && slotSheltered afterOpen && entriesSheltered arguments && slotSheltered trailing
      && (afterOpen.any Token.isNewline || endsOpen isOwn
        ([.mark .leftParen] ++ slotLeaves afterOpen ++ entryLeaves endDelimited arguments))
  | .function afterKeyword signature afterSignature isConstructor trailing =>
    slotSheltered afterKeyword && signature.sheltered && slotSheltered afterSignature
      && slotSheltered trailing && (isConstructor || endsOpen isOwn signature.leaves)
  | .lifetime operator afterOperator operand trailing =>
    !operator.isLineBound && slotSheltered afterOperator && operand.sheltered && slotSheltered trailing
      && endsOpen isOwn operand.leaves
  | .binary left operator afterOperator right =>
    left.sheltered && !operator.isLineBound && slotSheltered afterOperator && right.sheltered
  | .grouping afterOpen inner afterClose =>
    slotSheltered afterOpen && listSheltered inner && slotSheltered afterClose
  | .array afterOpen ⟨elements, _⟩ => slotSheltered afterOpen && entriesSheltered elements
  | .literal token after => !token.isLineBound && slotSheltered after
  | .identifier token after => !token.isLineBound && slotSheltered after
  | .numberStartDot token after => !token.isLineBound && slotSheltered after
  | .numberEndDot token after => !token.isLineBound && slotSheltered after
  | .unary operator afterOperator operand =>
    !operator.isLineBound && slotSheltered afterOperator && operand.sheltered
  | .step operand operator afterOperator =>
    operand.sheltered && !operator.isLineBound && slotSheltered afterOperator
  | .assign target operator afterOperator value =>
    target.sheltered && !operator.isLineBound && slotSheltered afterOperator && value.sheltered
  | .dotted owner afterDot member trailing =>
    owner.sheltered && slotSheltered afterDot && member.sheltered && slotSheltered trailing
  | .access collection accessor indices trailing =>
    collection.sheltered && !accessor.isLineBound && indicesSheltered indices && slotSheltered trailing
  | .ternary condition afterHook whenTrue afterColon whenFalse =>
    condition.sheltered && slotSheltered afterHook && whenTrue.sheltered && slotSheltered afterColon
      && whenFalse.sheltered
  | .newline => true
  | .lineComment token => !token.isLineBound
  | .blockComment token => !token.isLineBound
  | .unidentified token trailing => !token.isLineBound && slotSheltered trailing

def listSheltered : List Expr → Bool
  | [] => true
  | first :: others => first.sheltered && listSheltered others

def entriesSheltered : List (Item Expr) → Bool
  | [] => true
  | ⟨value, trailing⟩ :: others => value.sheltered && slotSheltered trailing && entriesSheltered others

def indicesSheltered : List (Trivia × Expr) → Bool
  | [] => true
  | (before, index) :: others => slotSheltered before && index.sheltered && indicesSheltered others

end

def optionSheltered : Option Expr → Bool
  | none => true
  | some expr => expr.sheltered

end Expr

/-- The variables of a declaration. The last one gets a semicolon unless a comma stands behind it. -/
def variablesSheltered (endDelimited : Bool) : List (Item Variable) → Bool
  | [] => true
  | ⟨declared, trailing⟩ :: others =>
    declared.keyword.all (!·.isLineBound) && slotSheltered declared.afterKeyword
      && declared.target.sheltered && slotSheltered trailing
      && (!others.isEmpty || endDelimited || endsOpen isOwnCode declared.target.leaves)
      && variablesSheltered endDelimited others

namespace Stmt

def breaksLine : Stmt → Bool
  | .expression .newline _ => true
  | _ => false

def leavesFresh : Stmt → Bool
  | .expression _ written => !written
  | _ => false

def goesOn (outermost : Bool) : List Stmt → Bool
  | [] => outermost
  | next :: _ => next.breaksLine

/-- A remark among statements. A line break of the source has to follow one that takes up its line, and a
region mark or a macro needs a page that is `fresh`, where such a line break counts. If the page is not
fresh, a comment is put behind what stands last, which has to be open. -/
def remarkSheltered (form : RemarkForm) (token : Token) (fresh openEnd followed : Bool) : Bool :=
  (fresh || (form.isComment && openEnd)) && (!token.isLineBound || followed)

mutual

def sheltered : Stmt → Bool
  | .declaration keyword afterKeyword declared written =>
    !keyword.isLineBound && slotSheltered afterKeyword
      && variablesSheltered declared.endDelimited declared.items
      && (written || endsOpen isOwnCode
        (Stmt.declaration keyword afterKeyword declared written).leaves)
  | .enumeration afterKeyword name afterOpen members _ =>
    slotSheltered afterKeyword && name.sheltered && slotSheltered afterOpen
      && Expr.entriesSheltered members.items
  | .expression expr written =>
    expr.sheltered && (written || expr.claims || endsOpen isOwnCode expr.leaves)
  | .block afterOpen body _ => slotSheltered afterOpen && listSheltered false false false body
  | .conditional afterKeyword condition whenTrue between afterElse none written =>
    slotSheltered afterKeyword && condition.sheltered && whenTrue.sheltered && !whenTrue.isRemark
      && slotSheltered between
      && (written || hasRemark between || endsOpen isOwnCode
        (Stmt.conditional afterKeyword condition whenTrue between afterElse none written).leaves)
  | .conditional afterKeyword condition whenTrue between afterElse (some whenFalse) written =>
    slotSheltered afterKeyword && condition.sheltered && whenTrue.sheltered && !whenTrue.isRemark
      && slotSheltered between && endsOpen isOwn (whenTrue.leaves ++ slotLeaves between)
      && slotSheltered afterElse && whenFalse.sheltered && !whenFalse.isRemark
      && (written || endsOpen isOwnCode
        (Stmt.conditional afterKeyword condition whenTrue between afterElse (some whenFalse) written).leaves)
  | .loop keyword afterKeyword condition body written =>
    !keyword.isLineBound && slotSheltered afterKeyword && condition.sheltered && body.sheltered
      && !body.isRemark
      && (written || endsOpen isOwnCode (Stmt.loop keyword afterKeyword condition body written).leaves)
  | .doUntil afterKeyword body between condition _ =>
    slotSheltered afterKeyword && body.sheltered && !body.isRemark && slotSheltered between
      && condition.sheltered
  | .forLoop afterKeyword afterOpen none afterStart condition afterCondition increment afterIncrement
      afterClose body written =>
    slotSheltered afterKeyword && slotSheltered afterOpen && slotSheltered afterStart
      && Expr.optionSheltered condition && slotSheltered afterCondition
      && Expr.optionSheltered increment && slotSheltered afterIncrement && slotSheltered afterClose
      && body.sheltered && !body.isRemark
      && (written || endsOpen isOwnCode (Stmt.forLoop afterKeyword afterOpen none afterStart condition
        afterCondition increment afterIncrement afterClose body written).leaves)
  | .forLoop afterKeyword afterOpen (some start) afterStart condition afterCondition increment
      afterIncrement afterClose body written =>
    slotSheltered afterKeyword && slotSheltered afterOpen && start.sheltered && !start.isRemark
      && slotSheltered afterStart
      && Expr.optionSheltered condition && slotSheltered afterCondition
      && Expr.optionSheltered increment && slotSheltered afterIncrement && slotSheltered afterClose
      && body.sheltered && !body.isRemark
      && (written || endsOpen isOwnCode (Stmt.forLoop afterKeyword afterOpen (some start) afterStart condition
        afterCondition increment afterIncrement afterClose body written).leaves)
  | .switch afterKeyword subject afterOpen cases _ =>
    slotSheltered afterKeyword && subject.sheltered && slotSheltered afterOpen && casesSheltered cases
  | .returning value _ => Expr.optionSheltered value
  | .breaking _ => true
  | .exiting _ => true
  | .remark _ _ => true
  | .define afterKeyword name body =>
    slotSheltered afterKeyword && name.sheltered && listSheltered false false false body
      && endsOpen isOwnCode (Stmt.define afterKeyword name body).leaves

def listSheltered (outermost fresh openEnd : Bool) : List Stmt → Bool
  | [] => true
  | first :: others =>
    first.sheltered
      && (match first with
        | .remark form token => remarkSheltered form token fresh openEnd (goesOn outermost others)
        | _ => true)
      && listSheltered outermost first.leavesFresh (endsOpen isOwn first.leaves) others

def casesSheltered : List (Case Stmt) → Bool
  | [] => true
  | ⟨label, afterKeyword, afterColon, body⟩ :: others =>
    Expr.optionSheltered label && slotSheltered afterKeyword && slotSheltered afterColon
      && listSheltered false false false body && casesSheltered others

end

end Stmt

/-- A program that shelters its remarks. Its page is fresh at first, and a remark may end it. -/
def sheltersRemarks (program : List Stmt) : Bool :=
  Stmt.listSheltered true true false program

/-- Fragments, first to last, in which every text that takes up its line is the last one or is followed
by a line break. -/
def isolated : List Fragment → Bool
  | [] => true
  | .text content :: rest =>
    (!isLineBound content || rest.isEmpty || rest.head? = some .newline) && isolated rest
  | _ :: rest => isolated rest

end GmlLayout
