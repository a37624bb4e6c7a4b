import GmlLayout.Proofs.Tree.Leaves

/-!
The trees that the grammar can build from given tokens. Slots hold trivia only, no token that is written
as it stands is a line break, and a binary operator has more than a line break to its left.
-/

namespace GmlLayout

variable (drawn : Token → Prop)

def SlotFormed (slot : Trivia) : Prop :=
  ∀ token ∈ slot, drawn token ∧ token.kind.isTrivia = true

def WordFormed (token : Token) : Prop :=
  drawn token ∧ token.kind ≠ .newline

theorem slotFormed_nil : SlotFormed drawn [] :=
  fun _ member => nomatch member

theorem SlotFormed.tail {drawn : Token → Prop} {token : Token} {slot : Trivia}
    (formed : SlotFormed drawn (token :: slot)) : SlotFormed drawn slot :=
  fun other member => formed other (List.mem_cons_of_mem _ member)

namespace Expr

mutual

def Formed : Expr → Prop
  | .call callee afterOpen ⟨arguments, _⟩ trailing =>
    callee.Formed ∧ SlotFormed drawn afterOpen ∧ ItemsFormed arguments ∧ SlotFormed drawn trailing
  | .function afterKeyword signature afterSignature _ trailing =>
    SlotFormed drawn afterKeyword ∧ signature.Formed ∧ SlotFormed drawn afterSignature ∧
      SlotFormed drawn trailing
  | .lifetime operator afterOperator operand trailing =>
    WordFormed drawn operator ∧ SlotFormed drawn afterOperator ∧ operand.Formed ∧
      SlotFormed drawn trailing
  | .binary left operator afterOperator right =>
    left.Formed ∧ left ≠ .newline ∧ WordFormed drawn operator ∧ SlotFormed drawn afterOperator ∧
      right.Formed
  | .grouping afterOpen inner afterClose =>
    SlotFormed drawn afterOpen ∧ ListFormed inner ∧ SlotFormed drawn afterClose
  | .array afterOpen ⟨elements, _⟩ => SlotFormed drawn afterOpen ∧ ItemsFormed elements
  | .literal token after => WordFormed drawn token ∧ SlotFormed drawn after
  | .numberStartDot token after => WordFormed drawn token ∧ SlotFormed drawn after
  | .numberEndDot token after => WordFormed drawn token ∧ SlotFormed drawn after
  | .unary operator afterOperator operand =>
    WordFormed drawn operator ∧ SlotFormed drawn afterOperator ∧ operand.Formed
  | .step operand operator afterOperator =>
    operand.Formed ∧ WordFormed drawn operator ∧ SlotFormed drawn afterOperator
  | .assign target operator afterOperator value =>
    target.Formed ∧ WordFormed drawn operator ∧ SlotFormed drawn afterOperator ∧ value.Formed
  | .identifier token after => WordFormed drawn token ∧ SlotFormed drawn after
  | .dotted owner afterDot member trailing =>
    owner.Formed ∧ SlotFormed drawn afterDot ∧ member.Formed ∧ SlotFormed drawn trailing
  | .access collection accessor indices trailing =>
    collection.Formed ∧ WordFormed drawn accessor ∧ IndicesFormed indices ∧ SlotFormed drawn trailing
  | .ternary condition afterHook whenTrue afterColon whenFalse =>
    condition.Formed ∧ SlotFormed drawn afterHook ∧ whenTrue.Formed ∧ SlotFormed drawn afterColon ∧
      whenFalse.Formed
  | .newline => True
  | .lineComment token => WordFormed drawn token
  | .blockComment token => WordFormed drawn token
  | .unidentified token trailing => WordFormed drawn token ∧ SlotFormed drawn trailing

def ListFormed : List Expr → Prop
  | [] => True
  | first :: others => first.Formed ∧ ListFormed others

def ItemsFormed : List (Item Expr) → Prop
  | [] => True
  | ⟨value, trailing⟩ :: others =>
    value.Formed ∧ SlotFormed drawn trailing ∧ ItemsFormed others

def IndicesFormed : List (Trivia × Expr) → Prop
  | [] => True
  | (before, index) :: others => SlotFormed drawn before ∧ index.Formed ∧ IndicesFormed others

end

end Expr

def OptionFormed : Option Expr → Prop
  | none => True
  | some expr => expr.Formed drawn

namespace Variable

/-- The keyword in front of a variable is formed when it is repeated there. -/
def KeywordFormed : Option Token → Prop
  | none => True
  | some keyword => WordFormed drawn keyword

def Formed (declared : Variable) : Prop :=
  declared.target.Formed drawn ∧ KeywordFormed drawn declared.keyword ∧
    SlotFormed drawn declared.afterKeyword

def ItemsFormed (items : List (Item Variable)) : Prop :=
  ∀ item ∈ items, item.value.Formed drawn ∧ SlotFormed drawn item.trailing

end Variable

namespace Stmt

mutual

def Formed : Stmt → Prop
  | .declaration keyword afterKeyword declared _ =>
    WordFormed drawn keyword ∧ SlotFormed drawn afterKeyword ∧
      Variable.ItemsFormed drawn declared.items
  | .enumeration afterKeyword name afterOpen members _ =>
    SlotFormed drawn afterKeyword ∧ name.Formed drawn ∧ SlotFormed drawn afterOpen ∧
      Expr.ItemsFormed drawn members.items
  | .expression expr _ => expr.Formed drawn
  | .block afterOpen body _ => SlotFormed drawn afterOpen ∧ ListFormed body
  | .conditional afterKeyword condition whenTrue between afterElse none _ =>
    SlotFormed drawn afterKeyword ∧ condition.Formed drawn ∧ whenTrue.Formed ∧
      SlotFormed drawn between ∧ SlotFormed drawn afterElse
  | .conditional afterKeyword condition whenTrue between afterElse (some whenFalse) _ =>
    SlotFormed drawn afterKeyword ∧ condition.Formed drawn ∧ whenTrue.Formed ∧
      SlotFormed drawn between ∧ SlotFormed drawn afterElse ∧ whenFalse.Formed
  | .loop keyword afterKeyword condition body _ =>
    WordFormed drawn keyword ∧ SlotFormed drawn afterKeyword ∧ condition.Formed drawn ∧ body.Formed
  | .doUntil afterKeyword body between condition _ =>
    SlotFormed drawn afterKeyword ∧ body.Formed ∧ SlotFormed drawn between ∧ condition.Formed drawn
  | .forLoop afterKeyword afterOpen none afterStart condition afterCondition increment
      afterIncrement afterClose body _ =>
    SlotFormed drawn afterKeyword ∧ SlotFormed drawn afterOpen ∧ SlotFormed drawn afterStart ∧
      OptionFormed drawn condition ∧ SlotFormed drawn afterCondition ∧ OptionFormed drawn increment ∧
      SlotFormed drawn afterIncrement ∧ SlotFormed drawn afterClose ∧ body.Formed
  | .forLoop afterKeyword afterOpen (some start) afterStart condition afterCondition increment
      afterIncrement afterClose body _ =>
    SlotFormed drawn afterKeyword ∧ SlotFormed drawn afterOpen ∧ start.Formed ∧
      SlotFormed drawn afterStart ∧ OptionFormed drawn condition ∧ SlotFormed drawn afterCondition ∧
      OptionFormed drawn increment ∧ SlotFormed drawn afterIncrement ∧ SlotFormed drawn afterClose ∧
      body.Formed
  | .switch afterKeyword subject afterOpen cases _ =>
    SlotFormed drawn afterKeyword ∧ subject.Formed drawn ∧ SlotFormed drawn afterOpen ∧
      CasesFormed cases
  | .returning value _ => OptionFormed drawn value
  | .breaking _ => True
  | .exiting _ => True
  | .remark _ token => WordFormed drawn token
  | .define afterKeyword name body =>
    SlotFormed drawn afterKeyword ∧ name.Formed drawn ∧ ListFormed body

def ListFormed : List Stmt → Prop
  | [] => True
  | first :: others => first.Formed ∧ ListFormed others

def CasesFormed : List (Case Stmt) → Prop
  | [] => True
  | ⟨label, afterKeyword, afterColon, body⟩ :: others =>
    OptionFormed drawn label ∧ SlotFormed drawn afterKeyword ∧ SlotFormed drawn afterColon ∧
      ListFormed body ∧ CasesFormed others

end

theorem listFormed_iff (program : List Stmt) :
    ListFormed drawn program ↔ ∀ stmt ∈ program, stmt.Formed drawn := by
  induction program with
  | nil => simp [ListFormed]
  | cons first others ih => simp [ListFormed, ih]

end Stmt

end GmlLayout
