import GmlLayout.Layout.Statement

/-!
What a tree holds, from left to right: the tokens it stores, the words and the punctuation that its
nodes imply, and the trivia of its slots. A statement's own semicolon is no leaf, since it may be
written where the source has none. The same leaves are compared with the tokens that were read and with
the fragments that are written.
-/

namespace GmlLayout

inductive Leaf where
  /-- A token that is written as it stands. -/
  | token (token : Token)
  /-- A number that is written with a zero in front of its point. -/
  | startDot (token : Token)
  /-- A number that is written with a zero behind its point. -/
  | endDot (token : Token)
  /-- The word `new` or `delete` in front of its operand. -/
  | opening (token : Token)
  | trivia (token : Token)
  /-- Trivia of the slot behind the word `default`, which is never written. -/
  | unwritten (token : Token)
  /-- A word that the node implies. -/
  | word (word : Keyword)
  /-- Punctuation that the node implies. -/
  | mark (symbol : Symbol)
  /-- The directive `#define` in front of a script. -/
  | directive
deriving DecidableEq, Repr

namespace Leaf

def stored : Leaf → Option Token
  | .token held | .startDot held | .endDot held | .opening held => some held
  | .trivia held | .unwritten held => some held
  | .word _ | .mark _ | .directive => none

def plain : Leaf → Option Token
  | .opening _ => none
  | leaf => leaf.stored

@[simp] def isMark : Leaf → Bool
  | .mark _ | .directive => true
  | _ => false

end Leaf

def slotLeaves (slot : Trivia) : List Leaf :=
  slot.map .trivia

/-- A delimiter stands behind every entry but the last, and behind that one if the list ends with it. -/
def delimiterLeaves (endDelimited isLast : Bool) : List Leaf :=
  if !isLast || endDelimited then [.mark .comma] else []

namespace Expr

mutual

def leaves : Expr → List Leaf
  | .call callee afterOpen ⟨arguments, endDelimited⟩ trailing =>
    callee.leaves ++ [.mark .leftParen] ++ slotLeaves afterOpen ++ entryLeaves endDelimited arguments
      ++ (if Print.passesLambda arguments then [] else [.mark .rightParen]) ++ slotLeaves trailing
  | .function afterKeyword signature afterSignature isConstructor trailing =>
    [.word .functionWord] ++ slotLeaves afterKeyword ++ signature.leaves ++ slotLeaves afterSignature
      ++ (if isConstructor then [.word .constructorWord] else []) ++ slotLeaves trailing
  | .lifetime operator afterOperator operand trailing =>
    [.opening operator] ++ slotLeaves afterOperator ++ operand.leaves ++ slotLeaves trailing
  | .binary left operator afterOperator right =>
    left.leaves ++ [.token operator] ++ slotLeaves afterOperator ++ right.leaves
  | .grouping afterOpen inner afterClose =>
    [.mark .leftParen] ++ slotLeaves afterOpen ++ listLeaves inner ++ [.mark .rightParen] ++ slotLeaves afterClose
  | .array afterOpen ⟨elements, endDelimited⟩ =>
    [.mark .leftBracket] ++ slotLeaves afterOpen ++ entryLeaves endDelimited elements ++ [.mark .rightBracket]
  | .literal token after => [.token token] ++ slotLeaves after
  | .numberStartDot token after => [.startDot token] ++ slotLeaves after
  | .numberEndDot token after => [.endDot token] ++ slotLeaves after
  | .unary operator afterOperator operand =>
    [.token operator] ++ slotLeaves afterOperator ++ operand.leaves
  | .step operand operator afterOperator =>
    operand.leaves ++ [.token operator] ++ slotLeaves afterOperator
  | .assign target operator afterOperator value =>
    target.leaves ++ [.token operator] ++ slotLeaves afterOperator ++ value.leaves
  | .identifier token after => [.token token] ++ slotLeaves after
  | .dotted owner afterDot member trailing =>
    owner.leaves ++ [.mark .dot] ++ slotLeaves afterDot ++ member.leaves ++ slotLeaves trailing
  | .access collection accessor indices trailing =>
    collection.leaves ++ [.token accessor] ++ indexLeaves indices ++ [.mark .rightBracket]
      ++ slotLeaves trailing
  | .ternary condition afterHook whenTrue afterColon whenFalse =>
    condition.leaves ++ [.mark .hook] ++ slotLeaves afterHook ++ whenTrue.leaves ++ [.mark .colon]
      ++ slotLeaves afterColon ++ whenFalse.leaves
  | .newline => []
  | .lineComment token => [.token token]
  | .blockComment token => [.token token]
  | .unidentified token trailing => [.token token] ++ slotLeaves trailing

def listLeaves : List Expr → List Leaf
  | [] => []
  | first :: others => first.leaves ++ listLeaves others

def entryLeaves (endDelimited : Bool) : List (Item Expr) → List Leaf
  | [] => []
  | ⟨value, trailing⟩ :: others =>
    value.leaves ++ delimiterLeaves endDelimited others.isEmpty ++ slotLeaves trailing
      ++ entryLeaves endDelimited others

def indexLeaves : List (Trivia × Expr) → List Leaf
  | [] => []
  | (before, index) :: others =>
    slotLeaves before ++ index.leaves ++ delimiterLeaves false others.isEmpty ++ indexLeaves others

end

end Expr

def optionLeaves : Option Expr → List Leaf
  | none => []
  | some expr => expr.leaves

/-- The keyword in front of a declared variable, when it is repeated there. -/
def Variable.keywordLeaves (declared : Variable) : List Leaf :=
  match declared.keyword with
  | none => []
  | some keyword => [.token keyword] ++ slotLeaves declared.afterKeyword

def variableLeaves (endDelimited : Bool) : List (Item Variable) → List Leaf
  | [] => []
  | ⟨declared, trailing⟩ :: others =>
    declared.keywordLeaves ++ declared.target.leaves
      ++ delimiterLeaves endDelimited others.isEmpty ++ slotLeaves trailing
      ++ variableLeaves endDelimited others

def labelLeaves (label : Option Expr) (afterKeyword : Trivia) : List Leaf :=
  match label with
  | some label => [.word .caseWord] ++ slotLeaves afterKeyword ++ label.leaves
  | none => [.word .defaultWord] ++ afterKeyword.map .unwritten

namespace Stmt

mutual

def leaves : Stmt → List Leaf
  | .declaration keyword afterKeyword declared _ =>
    [.token keyword] ++ slotLeaves afterKeyword ++ variableLeaves declared.endDelimited declared.items
  | .enumeration afterKeyword name afterOpen members _ =>
    [.word .enumWord] ++ slotLeaves afterKeyword ++ name.leaves ++ [.mark .leftBrace]
      ++ slotLeaves afterOpen ++ Expr.entryLeaves members.endDelimited members.items
      ++ [.mark .rightBrace]
  | .expression expr _ => expr.leaves
  | .block afterOpen body _ =>
    [.mark .leftBrace] ++ slotLeaves afterOpen ++ listLeaves body ++ [.mark .rightBrace]
  | .conditional afterKeyword condition whenTrue between afterElse whenFalse _ =>
    [.word .ifWord] ++ slotLeaves afterKeyword ++ condition.leaves ++ whenTrue.leaves
      ++ slotLeaves between
      ++ (match whenFalse with
        | none => []
        | some branch => [.word .elseWord] ++ slotLeaves afterElse ++ branch.leaves)
  | .loop keyword afterKeyword condition body _ =>
    [.token keyword] ++ slotLeaves afterKeyword ++ condition.leaves ++ body.leaves
  | .doUntil afterKeyword body between condition _ =>
    [.word .doWord] ++ slotLeaves afterKeyword ++ body.leaves ++ slotLeaves between
      ++ [.word .untilWord] ++ condition.leaves
  | .forLoop afterKeyword afterOpen start afterStart condition afterCondition increment
      afterIncrement afterClose body _ =>
    [.word .forWord] ++ slotLeaves afterKeyword ++ [.mark .leftParen] ++ slotLeaves afterOpen
      ++ (match start with
        | none => []
        | some start => start.leaves)
      ++ slotLeaves afterStart ++ optionLeaves condition ++ slotLeaves afterCondition
      ++ optionLeaves increment ++ slotLeaves afterIncrement ++ [.mark .rightParen]
      ++ slotLeaves afterClose ++ body.leaves
  | .switch afterKeyword subject afterOpen cases _ =>
    [.word .switchWord] ++ slotLeaves afterKeyword ++ subject.leaves ++ [.mark .leftBrace]
      ++ slotLeaves afterOpen ++ caseLeaves cases ++ [.mark .rightBrace]
  | .returning value _ => [.word .returnWord] ++ optionLeaves value
  | .breaking _ => [.word .breakWord]
  | .exiting _ => [.word .exitWord]
  | .remark _ token => [.token token]
  | .define afterKeyword name body =>
    [.directive] ++ slotLeaves afterKeyword ++ name.leaves ++ listLeaves body

def listLeaves : List Stmt → List Leaf
  | [] => []
  | first :: others => first.leaves ++ listLeaves others

def caseLeaves : List (Case Stmt) → List Leaf
  | [] => []
  | ⟨label, afterKeyword, afterColon, body⟩ :: others =>
    labelLeaves label afterKeyword ++ [.mark .colon] ++ slotLeaves afterColon ++ listLeaves body
      ++ caseLeaves others

end

end Stmt

end GmlLayout
