import GmlLayout.Proofs.Token.Apart
import GmlLayout.Proofs.Tree.Leaves

/-!
Trees whose tokens stay apart when they are laid out. The layout puts a space behind most of what it
writes, and brackets and separators need none. What is asked of a tree concerns the other places: where a
token is put right in front of an expression, where a space is taken back for a dot or a step operator,
and where an expression may end without a space and something else follows.
-/

namespace GmlLayout

namespace Token

/-- The zero that is added to a number that starts or ends with a point. -/
def zero : Token :=
  ⟨.number, .text "0", 0, 0⟩

def isThen (token : Token) : Bool :=
  token.kind = .keyword .thenWord

end Token

/-- The last token, remarks apart, where a slot has been laid out behind another token. -/
def slotEnding (slot : Trivia) (before : Option Token) : Option Token :=
  if slot.any Token.isThen then some (.ofKind (.keyword .thenWord)) else before

/-- What comes first may be put right behind the last token. Line breaks and blocks may be put
everywhere. -/
def stopsBefore (last : Option Token) (next : Option String) : Bool :=
  next.all fun text => last.any (·.stopsBefore text)

namespace Expr

def leading : Expr → Option String
  | .call callee _ _ _ => callee.leading
  | .function .. => some "function"
  | .lifetime operator .. => some operator.lexeme
  | .binary left .. => left.leading
  | .grouping .. => some "("
  | .array .. => some "["
  | .literal token _ | .identifier token _ | .numberEndDot token _ | .unidentified token _ =>
    some token.lexeme
  | .numberStartDot .. => some "0"
  | .unary operator .. => some operator.lexeme
  | .step operand .. => operand.leading
  | .assign target .. => target.leading
  | .dotted owner .. => owner.leading
  | .access collection .. => collection.leading
  | .ternary condition .. => condition.leading
  | .newline => none
  | .lineComment token | .blockComment token => some token.lexeme

mutual

def ending : Expr → Option Token
  | .call _ _ ⟨arguments, endDelimited⟩ trailing =>
    slotEnding trailing (if Print.passesLambda arguments then itemsEnding endDelimited arguments
      else some (.ofKind (.symbol .rightParen)))
  | .function _ signature afterSignature isConstructor trailing =>
    slotEnding trailing (if isConstructor then some (.ofKind (.keyword .constructorWord))
      else slotEnding afterSignature signature.ending)
  | .lifetime _ _ operand trailing => slotEnding trailing operand.ending
  | .binary _ _ _ right => right.ending
  | .grouping _ _ afterClose => slotEnding afterClose (some (.ofKind (.symbol .rightParen)))
  | .array .. => some (.ofKind (.symbol .rightBracket))
  | .literal token after | .identifier token after | .numberStartDot token after
  | .unidentified token after => slotEnding after (some token)
  | .numberEndDot _ after => slotEnding after (some .zero)
  | .unary _ _ operand => operand.ending
  | .step _ operator afterOperator => slotEnding afterOperator (some operator)
  | .assign _ _ _ value => value.ending
  | .dotted _ _ member trailing => slotEnding trailing member.ending
  | .access _ _ _ trailing => slotEnding trailing (some (.ofKind (.symbol .rightBracket)))
  | .ternary _ _ _ _ whenFalse => whenFalse.ending
  | .newline => none
  | .lineComment token | .blockComment token => some token

def itemsEnding (endDelimited : Bool) : List (Item Expr) → Option Token
  | [] => none
  | [⟨value, trailing⟩] =>
    slotEnding trailing (if endDelimited then some (.ofKind (.symbol .comma)) else value.ending)
  | _ :: next :: others => itemsEnding endDelimited (next :: others)

end

/-- The expression may end without a space: line breaks and spaces are taken back behind it, or a closing
parenthesis is left out. -/
def tight : Expr → Bool
  | .call _ _ ⟨arguments, _⟩ _ => Print.passesLambda arguments
  | .function _ _ _ isConstructor _ => !isConstructor
  | .lifetime .. => true
  | .binary _ _ _ right => right.tight
  | .unary _ _ operand => operand.tight
  | .assign _ _ _ value => value.tight
  | .dotted _ _ member _ => member.tight
  | .ternary _ _ _ _ whenFalse => whenFalse.tight
  | .newline => true
  | _ => false

def admits (expr : Expr) (next : Option String) : Bool :=
  !expr.tight || stopsBefore expr.ending next

mutual

def separate : Expr → Bool
  | .call callee _ ⟨arguments, _⟩ _ => callee.separate && itemsSeparate arguments
  | .function _ signature _ isConstructor _ =>
    signature.separate && (!isConstructor || signature.admits (some Keyword.constructorWord.text))
  | .lifetime _ _ operand _ => operand.separate
  | .binary left _ _ right => left.separate && right.separate
  | .grouping _ inner _ => listSeparate inner
  | .array _ ⟨elements, _⟩ =>
    itemsSeparate elements
      && elements.head?.all fun item => stopsBefore (some (.ofKind (.symbol .leftBracket))) item.value.leading
  | .literal .. | .identifier .. | .unidentified .. => true
  | .numberStartDot token _ => token.kind = .numberStartDot
  | .numberEndDot token _ => token.kind = .numberEndDot
  | .unary operator _ operand =>
    operand.separate
      && (operator.kind = .keyword .notWord || stopsBefore (some operator) operand.leading)
  | .step operand operator _ => operand.separate && stopsBefore operand.ending (some operator.lexeme)
  | .assign target operator _ value =>
    target.separate && target.admits (some operator.lexeme) && value.separate
  | .dotted owner _ member _ =>
    owner.separate && stopsBefore owner.ending (some Symbol.dot.text)
      && stopsBefore (some (.ofKind (.symbol .dot))) member.leading && member.separate
  | .access collection accessor indices _ =>
    collection.separate && isSevering accessor.lexeme && indicesSeparate indices
      && (accessor.kind ≠ .symbol .leftBracket
        || indices.head?.all fun index => stopsBefore (some accessor) index.2.leading)
  | .ternary condition _ whenTrue _ whenFalse =>
    condition.separate && condition.admits (some Symbol.hook.text) && whenTrue.separate
      && whenFalse.separate
  | .newline => true
  | .lineComment token | .blockComment token => isRemarkText token.lexeme

def listSeparate : List Expr → Bool
  | [] => true
  | [only] => only.separate
  | first :: next :: others => first.separate && first.admits next.leading && listSeparate (next :: others)

def itemsSeparate : List (Item Expr) → Bool
  | [] => true
  | ⟨value, _⟩ :: others => value.separate && itemsSeparate others

def indicesSeparate : List (Trivia × Expr) → Bool
  | [] => true
  | (_, index) :: others => index.separate && indicesSeparate others

end

def optionSeparate : Option Expr → Bool
  | none => true
  | some expr => expr.separate

end Expr

def variablesEnding : List (Item Variable) → Option Token
  | [] => none
  | [⟨declared, trailing⟩] => slotEnding trailing declared.target.ending
  | _ :: next :: others => variablesEnding (next :: others)

/-- Whether remarks that are statements count among what is written. Those in slots and in expressions do. -/
class Account where
  remarks : Bool

namespace Stmt

/-- The text that is written first, unless it can be written everywhere or does not count. -/
def leading [Account] : Stmt → Option String
  | .declaration keyword .. => some keyword.lexeme
  | .enumeration .. => some "enum"
  | .expression expr _ => expr.leading
  | .conditional .. => some "if"
  | .loop keyword .. => some keyword.lexeme
  | .doUntil .. => some "do"
  | .forLoop .. => some "for"
  | .switch .. => some "switch"
  | .returning .. => some "return"
  | .breaking _ => some "break"
  | .exiting _ => some "exit"
  | .define .. => some "#define"
  | .remark _ token => if Account.remarks then some token.lexeme else none
  | .block .. => none

mutual

/-- The token that is written last by a statement that may end without a space. -/
def ending : Stmt → Option Token
  | .declaration _ _ declared _ => variablesEnding declared.items
  | .expression expr _ => expr.ending
  | .loop _ _ _ body _ => body.ending
  | .forLoop _ _ _ _ _ _ _ _ _ body _ => body.ending
  | .define _ _ body => listEnding body
  | _ => none

def listEnding : List Stmt → Option Token
  | [] => none
  | [last] => last.ending
  | _ :: next :: others => listEnding (next :: others)

end

mutual

/-- The statement may end without a space, for it may be exempt from its semicolon. -/
def tight : Stmt → Bool
  | .declaration _ _ declared _ => !declared.endDelimited
  | .expression .newline _ => false
  | .expression expr written => !written && expr.tight
  | .loop _ _ _ body written => !written && body.tight
  | .forLoop _ _ _ _ _ _ _ _ _ body written => !written && body.tight
  | .define _ _ body => listTight body
  | _ => false

def listTight : List Stmt → Bool
  | [] => false
  | [last] => last.tight
  | _ :: next :: others => listTight (next :: others)

end

def admits (statement : Stmt) (next : Option String) : Bool :=
  !statement.tight || stopsBefore statement.ending next

def admitsAll (statement : Stmt) : Bool :=
  !statement.tight || statement.ending.any Token.isInert

mutual

def separate [Account] : Stmt → Bool
  | .declaration _ _ declared _ => declared.items.all (·.value.target.separate)
  | .enumeration _ name afterOpen members _ =>
    name.separate && !afterOpen.any Token.isThen && Expr.itemsSeparate members.items
  | .expression expr _ => expr.separate
  | .block _ body _ => listSeparate true body
  | .conditional _ condition whenTrue _ _ none _ =>
    condition.separate && condition.admits whenTrue.leading && whenTrue.separate
  | .conditional _ condition whenTrue _ _ (some whenFalse) written =>
    condition.separate && condition.admits whenTrue.leading && whenTrue.separate
      && whenFalse.separate && (written || whenFalse.admitsAll)
  | .loop _ _ condition body _ => condition.separate && condition.admits body.leading && body.separate
  | .doUntil _ body _ condition _ => body.separate && condition.separate
  | .forLoop _ _ none _ condition _ increment _ _ body _ =>
    Expr.optionSeparate condition && Expr.optionSeparate increment && body.separate
  | .forLoop _ _ (some start) _ condition _ increment _ _ body _ =>
    start.separate && Expr.optionSeparate condition && Expr.optionSeparate increment && body.separate
  | .switch _ subject _ cases _ => subject.separate && casesSeparate cases
  | .returning value _ => Expr.optionSeparate value
  | .breaking _ | .exiting _ => true
  | .remark _ token => isRemarkText token.lexeme
  | .define _ name body => name.separate && listSeparate false body

/-- Statements in a row. In a block, a new line is started behind each statement with a semicolon. -/
def listSeparate [Account] (inBlock : Bool) : List Stmt → Bool
  | [] => true
  | [only] => only.separate
  | first :: next :: others =>
    first.separate && (inBlock && first.hasSemicolon || first.admits next.leading)
      && listSeparate inBlock (next :: others)

def casesSeparate [Account] : List (Case Stmt) → Bool
  | [] => true
  | ⟨label, _, _, body⟩ :: others =>
    Expr.optionSeparate label && listSeparate false body && casesSeparate others

end

end Stmt

def separatesTokens (program : List Stmt) : Bool :=
  @Stmt.listSeparate ⟨false⟩ false program

/-- The tokens are separate, and the remarks that are statements are so with them. -/
def separatesRemarks (program : List Stmt) : Bool :=
  @Stmt.listSeparate ⟨true⟩ false program

end GmlLayout
