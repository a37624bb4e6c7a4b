import GmlLayout.Layout.Expression

/-!
Trees whose layout comes back to the indentation that it starts from. A step to the right is undone by a
step to the left, which is not taken below a blank line; so a bracket that opens with a line break must not
close below one, and neither must an indented branch of an `if`. Where a frame is open, a line break may take
over the author's indentation; so that must not be deeper than the layout's own. Parts that stand in a frame of
their own are free, since the frame brings the indentation back.
-/

namespace GmlLayout

/-- How many line breaks may end the page behind a slot, if `rows` of them end it in front. -/
def slotRows (respect : Bool) (rows : Nat) (slot : Trivia) : Nat :=
  if slot.isEmpty || (!respect && slot.all Token.isNewline) then rows
  else slot.foldl (fun rows token => if token.isNewline then rows + 1 else 0) rows

/-- Where a frame is open, the author's indentations in the slot are no deeper than the given one. -/
def slotWithin (framed : Bool) (depth : Nat) (slot : Trivia) : Bool :=
  !framed || slot.all fun token => !token.isNewline || token.indentHint ≤ depth

def depthBehind (afterOpen : Trivia) (depth : Nat) : Nat :=
  if afterOpen.any Token.isNewline then depth + 1 else depth

namespace Expr

/-- How many line breaks may end the page behind the expression, if `rows` of them end it in front. -/
def rowsBehind (rows : Nat) : Expr → Nat
  | .call _ _ ⟨arguments, _⟩ trailing =>
    slotRows true (if Print.passesLambda arguments then 1 else 0) trailing
  | .function _ _ afterSignature isConstructor trailing =>
    slotRows true (if isConstructor then 0 else slotRows false 0 afterSignature) trailing
  | .lifetime _ _ _ trailing => slotRows true 0 trailing
  | .binary _ _ afterOperator right => rowsBehind (slotRows true 0 afterOperator) right
  | .grouping _ _ afterClose => slotRows true 0 afterClose
  | .array _ _ => 0
  | .literal _ after => slotRows false 0 after
  | .identifier _ after => slotRows false 0 after
  | .numberStartDot _ after => slotRows false 0 after
  | .numberEndDot _ after => slotRows false 0 after
  | .unary _ afterOperator operand => rowsBehind (slotRows false 0 afterOperator) operand
  | .step _ _ afterOperator => slotRows false 0 afterOperator
  | .assign _ _ afterOperator value => rowsBehind (slotRows false 0 afterOperator) value
  | .dotted _ afterDot member trailing =>
    slotRows true (rowsBehind (slotRows true 0 afterDot) member) trailing
  | .access _ _ _ trailing => slotRows true 0 trailing
  | .ternary _ _ _ afterColon whenFalse => rowsBehind (slotRows false 0 afterColon) whenFalse
  | .newline => rows + 1
  | .lineComment _ => 0
  | .blockComment _ => 0
  | .unidentified _ trailing => slotRows true 0 trailing

def rowsBehind? (rows : Nat) : Option Expr → Nat
  | none => rows
  | some expr => expr.rowsBehind rows

/-- The same behind the entries of a delimited list, each on a line of its own if `broken`. -/
def entriesRows (endDelimited broken : Bool) (rows : Nat) : List (Item Expr) → Nat
  | [] => rows
  | ⟨value, trailing⟩ :: others =>
    let delimited := if !others.isEmpty || endDelimited then 0 else value.rowsBehind rows
    entriesRows endDelimited broken (slotRows true delimited trailing + (if broken then 1 else 0)) others

mutual

/-- The layout of the expression ends no deeper than `depth`, if it starts there. A grouping that answers a
request goes one deeper; unless that is accounted for, no line break may stand behind it. -/
def balanced (framed stepping : Bool) (depth : Nat) : Expr → Bool
  | .call callee afterOpen ⟨arguments, _⟩ trailing =>
    callee.balanced framed stepping depth && slotWithin framed (depth + 1) afterOpen &&
      entriesBalanced framed stepping (depthBehind afterOpen depth) arguments &&
      slotWithin framed depth trailing
  | .function _ signature _ _ trailing =>
    signature.balanced framed stepping depth && slotWithin framed depth trailing
  | .lifetime _ _ operand trailing =>
    operand.balanced framed stepping depth && slotWithin framed depth trailing
  | .binary left _ _ _ => left.balanced framed stepping depth
  | .grouping afterOpen inner afterClose =>
    slotWithin framed (depth + 1) afterOpen &&
      listBalanced framed stepping (depthBehind afterOpen depth) inner &&
      slotWithin framed (depth + 1) afterClose && (stepping || !afterClose.any Token.isNewline)
  | .array afterOpen ⟨elements, endDelimited⟩ =>
    slotWithin framed (depth + 1) afterOpen &&
      entriesBalanced framed stepping (depthBehind afterOpen depth) elements &&
      (!afterOpen.any Token.isNewline ||
        entriesRows endDelimited false (slotRows true 0 afterOpen) elements < 2)
  | .literal _ _ => true
  | .identifier _ _ => true
  | .numberStartDot _ _ => true
  | .numberEndDot _ _ => true
  | .unary _ _ operand => operand.balanced framed stepping depth
  | .step operand _ _ => operand.balanced framed stepping depth
  | .assign target _ _ value =>
    target.balanced framed stepping depth && value.balanced framed stepping depth
  | .dotted owner _ _ trailing => owner.balanced framed stepping depth && slotWithin framed depth trailing
  | .access collection _ _ trailing =>
    collection.balanced framed stepping depth && slotWithin framed depth trailing
  | .ternary condition _ _ _ _ => condition.balanced framed stepping depth
  | .newline => true
  | .lineComment _ => true
  | .blockComment _ => true
  | .unidentified _ trailing => slotWithin framed depth trailing

def listBalanced (framed stepping : Bool) (depth : Nat) : List Expr → Bool
  | [] => true
  | first :: others =>
    first.balanced framed stepping depth && listBalanced framed stepping depth others

def entriesBalanced (framed stepping : Bool) (depth : Nat) : List (Item Expr) → Bool
  | [] => true
  | ⟨value, trailing⟩ :: others =>
    value.balanced framed stepping depth && slotWithin framed depth trailing &&
      entriesBalanced framed stepping depth others

end

def optionBalanced (framed : Bool) (depth : Nat) : Option Expr → Bool
  | none => true
  | some expr => expr.balanced framed true depth

end Expr

namespace Stmt

mutual

/-- Whether the statement leaves a frame open behind it, as a list of variables does that goes on to a new
line. -/
def leavesFrames : Stmt → Bool
  | .declaration _ _ declared _ => declared.items.any fun item => item.trailing.any Token.isNewline
  | .block _ body _ => listLeavesFrames body
  | .conditional _ _ whenTrue _ _ none _ => whenTrue.leavesFrames
  | .conditional _ _ whenTrue _ _ (some whenFalse) _ => whenTrue.leavesFrames || whenFalse.leavesFrames
  | .loop _ _ _ body _ => body.leavesFrames
  | .doUntil _ body _ _ _ => body.leavesFrames
  | .forLoop _ _ none _ _ _ _ _ _ body _ => body.leavesFrames
  | .forLoop _ _ (some start) _ _ _ _ _ _ body _ => start.leavesFrames || body.leavesFrames
  | .switch _ _ _ cases _ => casesLeaveFrames cases
  | .define _ _ body => listLeavesFrames body
  | _ => false

def listLeavesFrames : List Stmt → Bool
  | [] => false
  | first :: others => first.leavesFrames || listLeavesFrames others

def casesLeaveFrames : List (Case Stmt) → Bool
  | [] => false
  | ⟨_, _, _, body⟩ :: others => listLeavesFrames body || casesLeaveFrames others

end

/-- How many line breaks may end the page behind the end of a statement. -/
def endedRows (written : Bool) (rows : Nat) : Nat :=
  if written then 0 else max 1 rows

def variablesRows (endDelimited : Bool) : List (Item Variable) → Nat
  | [] => 2
  | [⟨declared, trailing⟩] =>
    slotRows true (if endDelimited then 0 else declared.target.rowsBehind 2) trailing
  | _ :: others => variablesRows endDelimited others

/-- The same behind the line that is started behind a branch of an `if`. -/
def branchRows (rows : Nat) (between : Trivia) : Nat :=
  slotRows true rows between + (if between.any Token.isNewline then 0 else 1)

/-- How many line breaks may end the page behind the statement; there are never more than two. -/
def rowsBehind : Stmt → Nat
  | .declaration _ _ declared _ => max 1 (variablesRows declared.endDelimited declared.items)
  | .expression expr written => endedRows written (expr.rowsBehind 2)
  | .conditional _ _ whenTrue between _ none written =>
    endedRows written (branchRows whenTrue.rowsBehind between)
  | .conditional _ _ _ _ _ (some whenFalse) written => endedRows written whenFalse.rowsBehind
  | .loop _ _ _ body written => endedRows written body.rowsBehind
  | .forLoop _ _ _ _ _ _ _ _ _ body written => endedRows written body.rowsBehind
  | .define _ _ _ => 2
  | _ => 1

/-- The indentation of the statements of a block; a lone expression may stay on the line of the brace. -/
def bodyDepth (depth : Nat) : List Stmt → Nat
  | [] => depth
  | [only] => if only.isExpression then depth else depth + 1
  | _ => depth + 1

/-- The condition of an `if`. A branch without braces may be indented if the condition goes to the right, and
the step back must not come below a blank line. -/
def conditionBalanced (framed : Bool) (depth : Nat) (condition : Expr) (whenTrue : Stmt) : Bool :=
  condition.balanced framed false depth ||
    condition.balanced framed true depth &&
      (whenTrue.isBlock || !condition.isGrouping || whenTrue.rowsBehind < 2)

def headerBalanced (framed : Bool) (depth : Nat) (afterOpen : Trivia) (condition : Option Expr)
    (afterCondition : Trivia) (increment : Option Expr) (afterIncrement : Trivia) : Bool :=
  Expr.optionBalanced framed (depthBehind afterOpen depth) condition &&
    Expr.optionBalanced framed (depthBehind afterOpen depth) increment &&
    (!afterOpen.any Token.isNewline ||
      slotRows false (Expr.rowsBehind? (slotRows false 0 afterCondition) increment) afterIncrement < 2)

def continues (statement : Stmt) : Bool :=
  statement.isBlock || statement.isConditional

mutual

/-- The layout of the statement ends no deeper than `depth`, if it starts there. -/
def balanced (framed : Bool) (depth : Nat) : Stmt → Bool
  | .declaration _ _ declared _ =>
    declared.items.all fun item => slotWithin true (depth + 1) item.trailing
  | .enumeration _ name _ members _ =>
    name.balanced framed true depth && Expr.entriesBalanced framed true (depth + 1) members.items
  | .expression expr _ => expr.balanced framed true depth
  | .block _ body _ => listBalanced framed (bodyDepth depth body) body
  | .conditional _ condition whenTrue between _ none _ =>
    conditionBalanced framed depth condition whenTrue && whenTrue.balanced framed depth &&
      slotWithin (framed || whenTrue.leavesFrames) depth between
  | .conditional _ condition whenTrue between afterElse (some whenFalse) _ =>
    conditionBalanced framed depth condition whenTrue && whenTrue.balanced framed depth &&
      slotWithin (framed || whenTrue.leavesFrames) depth between &&
      (whenFalse.continues || slotWithin (framed || whenTrue.leavesFrames) (depth + 1) afterElse) &&
      whenFalse.balanced (framed || whenTrue.leavesFrames)
        (if whenFalse.continues then depth else depthBehind afterElse depth)
  | .loop _ _ condition body _ => condition.balanced framed true depth && body.balanced framed depth
  | .doUntil _ body _ condition _ =>
    body.balanced framed depth && condition.balanced (framed || body.leavesFrames) true depth
  | .forLoop _ afterOpen none _ condition afterCondition increment afterIncrement _ body _ =>
    slotWithin framed (depth + 1) afterOpen &&
      headerBalanced framed depth afterOpen condition afterCondition increment afterIncrement &&
      body.balanced framed depth
  | .forLoop _ afterOpen (some start) _ condition afterCondition increment afterIncrement _ body _ =>
    slotWithin framed (depth + 1) afterOpen && start.balanced framed (depthBehind afterOpen depth) &&
      headerBalanced (framed || start.leavesFrames) depth afterOpen condition afterCondition increment
        afterIncrement &&
      body.balanced (framed || start.leavesFrames) depth
  | .switch _ subject _ cases _ =>
    subject.balanced framed true depth && casesBalanced framed depth cases
  | .returning value _ => Expr.optionBalanced framed depth value
  | .breaking _ => true
  | .exiting _ => true
  | .remark _ _ => true
  | .define _ name body => name.balanced framed true depth && listBalanced framed depth body

def listBalanced (framed : Bool) (depth : Nat) : List Stmt → Bool
  | [] => true
  | first :: others =>
    first.balanced framed depth && listBalanced (framed || first.leavesFrames) depth others

def casesBalanced (framed : Bool) (depth : Nat) : List (Case Stmt) → Bool
  | [] => true
  | ⟨label, _, _, body⟩ :: others =>
    Expr.optionBalanced framed (depth + 1) label && listBalanced framed (depth + 2) body &&
      casesBalanced (framed || listLeavesFrames body) depth others

end

end Stmt

end GmlLayout
