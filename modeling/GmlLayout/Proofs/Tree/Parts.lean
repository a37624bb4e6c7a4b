import GmlLayout.Proofs.Tree.Formed

/-!
The expressions that occur in a tree, at any depth. Those of a tree that the grammar can build are trees
that it can build.
-/

namespace GmlLayout

namespace Expr

mutual

def parts : Expr → List Expr
  | .call callee afterOpen ⟨arguments, endDelimited⟩ trailing =>
    .call callee afterOpen ⟨arguments, endDelimited⟩ trailing :: (callee.parts ++ entryParts arguments)
  | .function afterKeyword signature afterSignature isConstructor trailing =>
    .function afterKeyword signature afterSignature isConstructor trailing :: signature.parts
  | .lifetime operator afterOperator operand trailing =>
    .lifetime operator afterOperator operand trailing :: operand.parts
  | .binary left operator afterOperator right =>
    .binary left operator afterOperator right :: (left.parts ++ right.parts)
  | .grouping afterOpen inner afterClose => .grouping afterOpen inner afterClose :: listParts inner
  | .array afterOpen ⟨elements, endDelimited⟩ =>
    .array afterOpen ⟨elements, endDelimited⟩ :: entryParts elements
  | .unary operator afterOperator operand => .unary operator afterOperator operand :: operand.parts
  | .step operand operator afterOperator => .step operand operator afterOperator :: operand.parts
  | .assign target operator afterOperator value =>
    .assign target operator afterOperator value :: (target.parts ++ value.parts)
  | .dotted owner afterDot member trailing =>
    .dotted owner afterDot member trailing :: (owner.parts ++ member.parts)
  | .access collection accessor indices trailing =>
    .access collection accessor indices trailing :: (collection.parts ++ indexParts indices)
  | .ternary condition afterHook whenTrue afterColon whenFalse =>
    .ternary condition afterHook whenTrue afterColon whenFalse ::
      (condition.parts ++ whenTrue.parts ++ whenFalse.parts)
  | .literal token after => [.literal token after]
  | .identifier token after => [.identifier token after]
  | .numberStartDot token after => [.numberStartDot token after]
  | .numberEndDot token after => [.numberEndDot token after]
  | .newline => [.newline]
  | .lineComment token => [.lineComment token]
  | .blockComment token => [.blockComment token]
  | .unidentified token trailing => [.unidentified token trailing]

def listParts : List Expr → List Expr
  | [] => []
  | first :: others => first.parts ++ listParts others

def entryParts : List (Item Expr) → List Expr
  | [] => []
  | ⟨value, _⟩ :: others => value.parts ++ entryParts others

def indexParts : List (Trivia × Expr) → List Expr
  | [] => []
  | (_, index) :: others => index.parts ++ indexParts others

end

def optionParts : Option Expr → List Expr
  | none => []
  | some expr => expr.parts

end Expr

namespace Stmt

mutual

def parts : Stmt → List Expr
  | .declaration _ _ declared _ => declared.items.flatMap fun item => item.value.target.parts
  | .enumeration _ name _ members _ => name.parts ++ Expr.entryParts members.items
  | .expression expr _ => expr.parts
  | .block _ body _ => listParts body
  | .conditional _ condition whenTrue _ _ none _ => condition.parts ++ whenTrue.parts
  | .conditional _ condition whenTrue _ _ (some whenFalse) _ =>
    condition.parts ++ whenTrue.parts ++ whenFalse.parts
  | .loop _ _ condition body _ => condition.parts ++ body.parts
  | .doUntil _ body _ condition _ => body.parts ++ condition.parts
  | .forLoop _ _ none _ condition _ increment _ _ body _ =>
    Expr.optionParts condition ++ Expr.optionParts increment ++ body.parts
  | .forLoop _ _ (some start) _ condition _ increment _ _ body _ =>
    start.parts ++ Expr.optionParts condition ++ Expr.optionParts increment ++ body.parts
  | .switch _ subject _ cases _ => subject.parts ++ caseParts cases
  | .returning value _ => Expr.optionParts value
  | .breaking _ => []
  | .exiting _ => []
  | .remark _ _ => []
  | .define _ name body => name.parts ++ listParts body

def listParts : List Stmt → List Expr
  | [] => []
  | first :: others => first.parts ++ listParts others

def caseParts : List (Case Stmt) → List Expr
  | [] => []
  | ⟨label, _, _, body⟩ :: others => Expr.optionParts label ++ listParts body ++ caseParts others

end

end Stmt

def Expr.All (each : Expr → Prop) (exprs : List Expr) : Prop :=
  ∀ expr ∈ exprs, each expr

namespace Expr.All

variable {each : Expr → Prop} {expr : Expr} {first second : List Expr}

theorem nil : All each [] :=
  fun _ member => nomatch member

theorem cons (own : each expr) (others : All each first) : All each (expr :: first) :=
  List.forall_mem_cons.mpr ⟨own, others⟩

theorem append (front : All each first) (back : All each second) : All each (first ++ second) :=
  List.forall_mem_append.mpr ⟨front, back⟩

end Expr.All

section

variable {drawn : Token → Prop}

namespace Expr

mutual

theorem Formed.of_mem_parts : ∀ {expr : Expr}, expr.Formed drawn →
    ∀ part ∈ expr.parts, part.Formed drawn
  | .call callee afterOpen ⟨arguments, endDelimited⟩ trailing, formed => by
    simp only [parts, List.forall_mem_cons, List.forall_mem_append]
    exact ⟨formed, Formed.of_mem_parts formed.1, ItemsFormed.of_mem_parts formed.2.2.1⟩
  | .function afterKeyword signature afterSignature isConstructor trailing, formed => by
    simp only [parts, List.forall_mem_cons]
    exact ⟨formed, Formed.of_mem_parts formed.2.1⟩
  | .lifetime operator afterOperator operand trailing, formed => by
    simp only [parts, List.forall_mem_cons]
    exact ⟨formed, Formed.of_mem_parts formed.2.2.1⟩
  | .binary left operator afterOperator right, formed => by
    simp only [parts, List.forall_mem_cons, List.forall_mem_append]
    exact ⟨formed, Formed.of_mem_parts formed.1, Formed.of_mem_parts formed.2.2.2.2⟩
  | .grouping afterOpen inner afterClose, formed => by
    simp only [parts, List.forall_mem_cons]
    exact ⟨formed, ListFormed.of_mem_parts formed.2.1⟩
  | .array afterOpen ⟨elements, endDelimited⟩, formed => by
    simp only [parts, List.forall_mem_cons]
    exact ⟨formed, ItemsFormed.of_mem_parts formed.2⟩
  | .unary operator afterOperator operand, formed => by
    simp only [parts, List.forall_mem_cons]
    exact ⟨formed, Formed.of_mem_parts formed.2.2⟩
  | .step operand operator afterOperator, formed => by
    simp only [parts, List.forall_mem_cons]
    exact ⟨formed, Formed.of_mem_parts formed.1⟩
  | .assign target operator afterOperator value, formed => by
    simp only [parts, List.forall_mem_cons, List.forall_mem_append]
    exact ⟨formed, Formed.of_mem_parts formed.1, Formed.of_mem_parts formed.2.2.2⟩
  | .dotted owner afterDot member trailing, formed => by
    simp only [parts, List.forall_mem_cons, List.forall_mem_append]
    exact ⟨formed, Formed.of_mem_parts formed.1, Formed.of_mem_parts formed.2.2.1⟩
  | .access collection accessor indices trailing, formed => by
    simp only [parts, List.forall_mem_cons, List.forall_mem_append]
    exact ⟨formed, Formed.of_mem_parts formed.1, IndicesFormed.of_mem_parts formed.2.2.1⟩
  | .ternary condition afterHook whenTrue afterColon whenFalse, formed => by
    simp only [parts, List.forall_mem_cons, List.forall_mem_append]
    exact ⟨formed, ⟨Formed.of_mem_parts formed.1, Formed.of_mem_parts formed.2.2.1⟩,
      Formed.of_mem_parts formed.2.2.2.2⟩
  | .literal token after, formed => List.forall_mem_singleton.mpr formed
  | .identifier token after, formed => List.forall_mem_singleton.mpr formed
  | .numberStartDot token after, formed => List.forall_mem_singleton.mpr formed
  | .numberEndDot token after, formed => List.forall_mem_singleton.mpr formed
  | .newline, formed => List.forall_mem_singleton.mpr formed
  | .lineComment token, formed => List.forall_mem_singleton.mpr formed
  | .blockComment token, formed => List.forall_mem_singleton.mpr formed
  | .unidentified token trailing, formed => List.forall_mem_singleton.mpr formed

theorem ListFormed.of_mem_parts : ∀ {exprs : List Expr}, ListFormed drawn exprs →
    ∀ part ∈ listParts exprs, part.Formed drawn
  | [], _ => by simp [listParts]
  | first :: others, formed =>
    List.forall_mem_append.mpr ⟨Formed.of_mem_parts formed.1, ListFormed.of_mem_parts formed.2⟩

theorem ItemsFormed.of_mem_parts : ∀ {items : List (Item Expr)}, ItemsFormed drawn items →
    ∀ part ∈ entryParts items, part.Formed drawn
  | [], _ => by simp [entryParts]
  | ⟨value, trailing⟩ :: others, formed =>
    List.forall_mem_append.mpr ⟨Formed.of_mem_parts formed.1, ItemsFormed.of_mem_parts formed.2.2⟩

theorem IndicesFormed.of_mem_parts : ∀ {indices : List (Trivia × Expr)}, IndicesFormed drawn indices →
    ∀ part ∈ indexParts indices, part.Formed drawn
  | [], _ => by simp [indexParts]
  | (before, index) :: others, formed =>
    List.forall_mem_append.mpr ⟨Formed.of_mem_parts formed.2.1, IndicesFormed.of_mem_parts formed.2.2⟩

end

end Expr

theorem OptionFormed.of_mem_parts : ∀ {expr : Option Expr}, OptionFormed drawn expr →
    ∀ part ∈ Expr.optionParts expr, part.Formed drawn
  | none, _ => by simp [Expr.optionParts]
  | some expr, formed => @Expr.Formed.of_mem_parts drawn expr formed

namespace Stmt

mutual

theorem Formed.of_mem_parts : ∀ {statement : Stmt}, statement.Formed drawn →
    ∀ part ∈ statement.parts, part.Formed drawn
  | .declaration keyword afterKeyword declared written, formed => by
    intro part member
    obtain ⟨item, among, member⟩ := List.mem_flatMap.mp member
    exact Expr.Formed.of_mem_parts (formed.2.2 item among).1.1 part member
  | .enumeration afterKeyword name afterOpen members written, formed => by
    simp only [parts, List.forall_mem_append]
    exact ⟨formed.2.1.of_mem_parts, formed.2.2.2.of_mem_parts⟩
  | .expression expr written, formed => @Expr.Formed.of_mem_parts drawn expr formed
  | .block afterOpen body written, formed => ListFormed.of_mem_parts formed.2
  | .conditional afterKeyword condition whenTrue between afterElse none written, formed => by
    simp only [parts, List.forall_mem_append]
    exact ⟨formed.2.1.of_mem_parts, Formed.of_mem_parts formed.2.2.1⟩
  | .conditional afterKeyword condition whenTrue between afterElse (some whenFalse) written, formed => by
    simp only [parts, List.forall_mem_append]
    exact ⟨⟨formed.2.1.of_mem_parts, Formed.of_mem_parts formed.2.2.1⟩,
      Formed.of_mem_parts formed.2.2.2.2.2⟩
  | .loop keyword afterKeyword condition body written, formed => by
    simp only [parts, List.forall_mem_append]
    exact ⟨formed.2.2.1.of_mem_parts, Formed.of_mem_parts formed.2.2.2⟩
  | .doUntil afterKeyword body between condition written, formed => by
    simp only [parts, List.forall_mem_append]
    exact ⟨Formed.of_mem_parts formed.2.1, formed.2.2.2.of_mem_parts⟩
  | .forLoop afterKeyword afterOpen none afterStart condition afterCondition increment afterIncrement
      afterClose body written, formed => by
    simp only [parts, List.forall_mem_append]
    obtain ⟨_, _, _, test, _, step, _, _, inner⟩ := formed
    exact ⟨⟨test.of_mem_parts, step.of_mem_parts⟩, Formed.of_mem_parts inner⟩
  | .forLoop afterKeyword afterOpen (some start) afterStart condition afterCondition increment
      afterIncrement afterClose body written, formed => by
    simp only [parts, List.forall_mem_append]
    obtain ⟨_, _, first, _, test, _, step, _, _, inner⟩ := formed
    exact ⟨⟨⟨Formed.of_mem_parts first, test.of_mem_parts⟩, step.of_mem_parts⟩, Formed.of_mem_parts inner⟩
  | .switch afterKeyword subject afterOpen cases written, formed => by
    simp only [parts, List.forall_mem_append]
    exact ⟨formed.2.1.of_mem_parts, CasesFormed.of_mem_parts formed.2.2.2⟩
  | .returning value written, formed => @OptionFormed.of_mem_parts drawn value formed
  | .breaking written, _ => by simp [parts]
  | .exiting written, _ => by simp [parts]
  | .remark form token, _ => by simp [parts]
  | .define afterKeyword name body, formed => by
    simp only [parts, List.forall_mem_append]
    exact ⟨formed.2.1.of_mem_parts, ListFormed.of_mem_parts formed.2.2⟩

theorem ListFormed.of_mem_parts : ∀ {statements : List Stmt}, ListFormed drawn statements →
    ∀ part ∈ listParts statements, part.Formed drawn
  | [], _ => by simp [listParts]
  | first :: others, formed =>
    List.forall_mem_append.mpr ⟨Formed.of_mem_parts formed.1, ListFormed.of_mem_parts formed.2⟩

theorem CasesFormed.of_mem_parts : ∀ {cases : List (Case Stmt)}, CasesFormed drawn cases →
    ∀ part ∈ caseParts cases, part.Formed drawn
  | [], _ => by simp [caseParts]
  | ⟨label, afterKeyword, afterColon, body⟩ :: others, formed => by
    simp only [caseParts, List.forall_mem_append]
    exact ⟨⟨formed.1.of_mem_parts, ListFormed.of_mem_parts formed.2.2.2.1⟩,
      CasesFormed.of_mem_parts formed.2.2.2.2⟩

end

end Stmt

end

end GmlLayout
