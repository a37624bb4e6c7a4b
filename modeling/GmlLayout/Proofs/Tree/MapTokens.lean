import GmlLayout.Tree.Stmt

/-!
Trees with every token replaced. A replacement is applied to all tokens that a tree stores, those of its
slots included; the shape of the tree stays. Above all, it serves to forget where tokens stand.
-/

namespace GmlLayout

def Token.unplaced (token : Token) : Token :=
  { token with line := 0, column := 0 }

@[simp] theorem Token.kind_unplaced (token : Token) : token.unplaced.kind = token.kind := rfl

variable (change : Token → Token)

namespace Expr

mutual

def mapTokens : Expr → Expr
  | .call callee afterOpen ⟨arguments, endDelimited⟩ trailing =>
    .call callee.mapTokens (afterOpen.map change) ⟨mapItems arguments, endDelimited⟩
      (trailing.map change)
  | .function afterKeyword signature afterSignature isConstructor trailing =>
    .function (afterKeyword.map change) signature.mapTokens (afterSignature.map change) isConstructor
      (trailing.map change)
  | .lifetime operator afterOperator operand trailing =>
    .lifetime (change operator) (afterOperator.map change) operand.mapTokens (trailing.map change)
  | .binary left operator afterOperator right =>
    .binary left.mapTokens (change operator) (afterOperator.map change) right.mapTokens
  | .grouping afterOpen inner afterClose =>
    .grouping (afterOpen.map change) (mapList inner) (afterClose.map change)
  | .array afterOpen ⟨elements, endDelimited⟩ =>
    .array (afterOpen.map change) ⟨mapItems elements, endDelimited⟩
  | .literal token after => .literal (change token) (after.map change)
  | .numberStartDot token after => .numberStartDot (change token) (after.map change)
  | .numberEndDot token after => .numberEndDot (change token) (after.map change)
  | .unary operator afterOperator operand =>
    .unary (change operator) (afterOperator.map change) operand.mapTokens
  | .step operand operator afterOperator =>
    .step operand.mapTokens (change operator) (afterOperator.map change)
  | .assign target operator afterOperator value =>
    .assign target.mapTokens (change operator) (afterOperator.map change) value.mapTokens
  | .identifier token after => .identifier (change token) (after.map change)
  | .dotted owner afterDot member trailing =>
    .dotted owner.mapTokens (afterDot.map change) member.mapTokens (trailing.map change)
  | .access collection accessor indices trailing =>
    .access collection.mapTokens (change accessor) (mapIndices indices) (trailing.map change)
  | .ternary condition afterHook whenTrue afterColon whenFalse =>
    .ternary condition.mapTokens (afterHook.map change) whenTrue.mapTokens (afterColon.map change)
      whenFalse.mapTokens
  | .newline => .newline
  | .lineComment token => .lineComment (change token)
  | .blockComment token => .blockComment (change token)
  | .unidentified token trailing => .unidentified (change token) (trailing.map change)

def mapList : List Expr → List Expr
  | [] => []
  | first :: others => first.mapTokens :: mapList others

def mapItems : List (Item Expr) → List (Item Expr)
  | [] => []
  | ⟨value, trailing⟩ :: others => ⟨value.mapTokens, trailing.map change⟩ :: mapItems others

def mapIndices : List (Trivia × Expr) → List (Trivia × Expr)
  | [] => []
  | (before, index) :: others => (before.map change, index.mapTokens) :: mapIndices others

end

def unplaced (expr : Expr) : Expr :=
  expr.mapTokens Token.unplaced

end Expr

def Series.mapTokens (series : Series Expr) : Series Expr :=
  ⟨Expr.mapItems change series.items, series.endDelimited⟩

namespace Variable

def mapTokens (declared : Variable) : Variable :=
  ⟨declared.target.mapTokens change, declared.keyword.map change, declared.afterKeyword.map change⟩

def mapItem (item : Item Variable) : Item Variable :=
  ⟨item.value.mapTokens change, item.trailing.map change⟩

def mapSeries (declared : Series Variable) : Series Variable :=
  ⟨declared.items.map (mapItem change), declared.endDelimited⟩

end Variable

namespace Stmt

mutual

def mapTokens : Stmt → Stmt
  | .declaration keyword afterKeyword declared semicolon =>
    .declaration (change keyword) (afterKeyword.map change) (Variable.mapSeries change declared)
      semicolon
  | .enumeration afterKeyword name afterOpen members semicolon =>
    .enumeration (afterKeyword.map change) (name.mapTokens change) (afterOpen.map change)
      (members.mapTokens change) semicolon
  | .expression expr semicolon => .expression (expr.mapTokens change) semicolon
  | .block afterOpen body semicolon => .block (afterOpen.map change) (mapList body) semicolon
  | .conditional afterKeyword condition whenTrue between afterElse none semicolon =>
    .conditional (afterKeyword.map change) (condition.mapTokens change) whenTrue.mapTokens
      (between.map change) (afterElse.map change) none semicolon
  | .conditional afterKeyword condition whenTrue between afterElse (some whenFalse) semicolon =>
    .conditional (afterKeyword.map change) (condition.mapTokens change) whenTrue.mapTokens
      (between.map change) (afterElse.map change) (some whenFalse.mapTokens) semicolon
  | .loop keyword afterKeyword condition body semicolon =>
    .loop (change keyword) (afterKeyword.map change) (condition.mapTokens change) body.mapTokens
      semicolon
  | .doUntil afterKeyword body between condition semicolon =>
    .doUntil (afterKeyword.map change) body.mapTokens (between.map change)
      (condition.mapTokens change) semicolon
  | .forLoop afterKeyword afterOpen none afterStart condition afterCondition increment
      afterIncrement afterClose body semicolon =>
    .forLoop (afterKeyword.map change) (afterOpen.map change) none (afterStart.map change)
      (condition.map (·.mapTokens change)) (afterCondition.map change)
      (increment.map (·.mapTokens change)) (afterIncrement.map change) (afterClose.map change)
      body.mapTokens semicolon
  | .forLoop afterKeyword afterOpen (some start) afterStart condition afterCondition increment
      afterIncrement afterClose body semicolon =>
    .forLoop (afterKeyword.map change) (afterOpen.map change) (some start.mapTokens)
      (afterStart.map change) (condition.map (·.mapTokens change)) (afterCondition.map change)
      (increment.map (·.mapTokens change)) (afterIncrement.map change) (afterClose.map change)
      body.mapTokens semicolon
  | .switch afterKeyword subject afterOpen cases semicolon =>
    .switch (afterKeyword.map change) (subject.mapTokens change) (afterOpen.map change)
      (mapCases cases) semicolon
  | .returning value semicolon => .returning (value.map (·.mapTokens change)) semicolon
  | .breaking semicolon => .breaking semicolon
  | .exiting semicolon => .exiting semicolon
  | .remark form token => .remark form (change token)
  | .define afterKeyword name body =>
    .define (afterKeyword.map change) (name.mapTokens change) (mapList body)

def mapList : List Stmt → List Stmt
  | [] => []
  | first :: others => first.mapTokens :: mapList others

def mapCases : List (Case Stmt) → List (Case Stmt)
  | [] => []
  | ⟨label, afterKeyword, afterColon, body⟩ :: others =>
    ⟨label.map (·.mapTokens change), afterKeyword.map change, afterColon.map change, mapList body⟩
      :: mapCases others

end

def unplaced (stmt : Stmt) : Stmt :=
  stmt.mapTokens Token.unplaced

def mapCase (branch : Case Stmt) : Case Stmt :=
  ⟨branch.label.map (·.mapTokens change), branch.afterKeyword.map change,
    branch.afterColon.map change, mapList change branch.body⟩

theorem mapList_eq_map (program : List Stmt) : mapList change program = program.map (mapTokens change) := by
  induction program with
  | nil => rfl
  | cons first others ih => rw [mapList, ih, List.map_cons]

end Stmt

end GmlLayout
