import GmlLayout.Layout.Format
import GmlLayout.Proofs.Tree.Formed
import GmlLayout.Proofs.Tree.MapTokens

/-!
Where the tokens of a source stand has no part in how it is laid out. Only a token that does not belong
into trivia is noted together with its place, and the grammar puts none there.
-/

namespace GmlLayout

variable {drawn : Token → Prop}

@[simp] theorem Token.isNewline_unplaced (token : Token) : token.unplaced.isNewline = token.isNewline :=
  rfl

@[simp] theorem Token.indentHint_unplaced (token : Token) :
    token.unplaced.indentHint = token.indentHint :=
  rfl

namespace Page

theorem triviaFrom_unplaced (how : Instruction) (opening : Opening) (moved : Bool) {slot : Trivia}
    (formed : SlotFormed drawn slot) (page : Page) :
    triviaFrom how opening moved (slot.map Token.unplaced) page = triviaFrom how opening moved slot page := by
  induction slot generalizing opening moved page with
  | nil => rfl
  | cons token rest ih =>
    have trivia : token.kind.isTrivia = true := (formed token List.mem_cons_self).2
    have later := fun opening moved page => ih opening moved formed.tail page
    simp only [List.map_cons, triviaFrom, Token.isNewline_unplaced, Token.kind_unplaced, trivia,
      if_true, Token.indentHint_unplaced, later]
    rfl

theorem trivia_unplaced {slot : Trivia} (formed : SlotFormed drawn slot) (how : Instruction)
    (page : Page) : page.trivia (slot.map Token.unplaced) how = page.trivia slot how := by
  unfold trivia
  rw [triviaFrom_unplaced how _ _ formed, List.isEmpty_map, List.all_map]
  rfl

end Page

namespace Expr

@[simp] theorem isGrouping_unplaced (expr : Expr) :
    (expr.mapTokens Token.unplaced).isGrouping = expr.isGrouping := by
  cases expr <;> simp [mapTokens, isGrouping]

@[simp] theorem unidentifiedCallee?_unplaced (expr : Expr) :
    (expr.mapTokens Token.unplaced).unidentifiedCallee? = expr.unidentifiedCallee?.map Token.unplaced := by
  cases expr with
  | call callee afterOpen arguments trailing =>
    cases callee <;> simp [mapTokens, unidentifiedCallee?]
  | _ => simp [mapTokens, unidentifiedCallee?]

@[simp] theorem isLambdaCall_unplaced (expr : Expr) :
    (expr.mapTokens Token.unplaced).isLambdaCall = expr.isLambdaCall := by
  rw [isLambdaCall, unidentifiedCallee?_unplaced, Option.any_map]
  rfl

@[simp] theorem mapItems_isEmpty (change : Token → Token) (items : List (Item Expr)) :
    (mapItems change items).isEmpty = items.isEmpty := by
  cases items <;> rfl

@[simp] theorem mapIndices_isEmpty (change : Token → Token) (indices : List (Trivia × Expr)) :
    (mapIndices change indices).isEmpty = indices.isEmpty := by
  cases indices <;> rfl

theorem filterMap_unidentifiedCallee? (items : List (Item Expr)) :
    (mapItems Token.unplaced items).filterMap (fun item => item.value.unidentifiedCallee?) =
      (items.filterMap fun item => item.value.unidentifiedCallee?).map Token.unplaced := by
  induction items with
  | nil => rfl
  | cons item others ih =>
    simp only [mapItems, List.filterMap_cons, unidentifiedCallee?_unplaced, ih]
    cases item.value.unidentifiedCallee? <;> rfl

end Expr

namespace Print

theorem trivia_unplaced {slot : Trivia} (formed : SlotFormed drawn slot) (how : Instruction) :
    trivia (slot.map Token.unplaced) how = trivia slot how := by
  unfold trivia
  simp only [Page.trivia_unplaced formed]

theorem slot_unplaced {slot : Trivia} (formed : SlotFormed drawn slot) (how : Instruction) :
    Print.slot (slot.map Token.unplaced) how = Print.slot slot how := by
  unfold Print.slot
  simp only [Page.trivia_unplaced formed]

@[simp] theorem writeToken_unplaced (token : Token) (spaceAfter : Bool) :
    writeToken token.unplaced spaceAfter = writeToken token spaceAfter :=
  rfl

theorem closeExpression_unplaced {slot : Trivia} (formed : SlotFormed drawn slot) :
    closeExpression (slot.map Token.unplaced) = closeExpression slot := by
  unfold closeExpression
  rw [slot_unplaced formed]

theorem closeEntry_unplaced (endDelimited breakBetween breakAtEnd isLast : Bool) {slot : Trivia}
    (formed : SlotFormed drawn slot) :
    closeEntry endDelimited breakBetween breakAtEnd isLast (slot.map Token.unplaced) =
      closeEntry endDelimited breakBetween breakAtEnd isLast slot := by
  unfold closeEntry
  rw [trivia_unplaced formed, List.isEmpty_map]

theorem closeGrouping_unplaced (moved : Bool) {slot : Trivia} (formed : SlotFormed drawn slot) :
    closeGrouping moved (slot.map Token.unplaced) = closeGrouping moved slot := by
  unfold closeGrouping
  simp only [slot_unplaced formed]

@[simp] theorem passesLambda_unplaced (arguments : List (Item Expr)) :
    passesLambda (Expr.mapItems Token.unplaced arguments) = passesLambda arguments := by
  unfold passesLambda
  rw [Expr.filterMap_unidentifiedCallee?, List.getLast?_map, Option.any_map]
  rfl

@[simp] theorem closeCall_unplaced (moved : Bool) (arguments : List (Item Expr)) :
    closeCall moved (Expr.mapItems Token.unplaced arguments) = closeCall moved arguments := by
  unfold closeCall
  rw [passesLambda_unplaced]

mutual

theorem expr_unplaced : ∀ {expr : Expr}, expr.Formed drawn →
    Print.expr (expr.mapTokens Token.unplaced) = Print.expr expr
  | .call callee afterOpen ⟨arguments, endDelimited⟩ trailing, formed => by
    obtain ⟨calleeFormed, openFormed, argumentsFormed, trailingFormed⟩ := formed
    have same := Expr.isLambdaCall_unplaced (.call callee afterOpen ⟨arguments, endDelimited⟩ trailing)
    simp only [Expr.mapTokens] at same
    simp only [Expr.mapTokens, Print.expr, same, expr_unplaced calleeFormed,
      trivia_unplaced openFormed, entries_unplaced argumentsFormed, closeCall_unplaced,
      closeExpression_unplaced trailingFormed]
  | .function afterKeyword signature afterSignature isConstructor trailing, formed => by
    obtain ⟨keywordFormed, signatureFormed, afterFormed, trailingFormed⟩ := formed
    simp only [Expr.mapTokens, Print.expr, slot_unplaced keywordFormed, expr_unplaced signatureFormed,
      slot_unplaced afterFormed, closeExpression_unplaced trailingFormed]
  | .lifetime operator afterOperator operand trailing, formed => by
    obtain ⟨_, afterFormed, operandFormed, trailingFormed⟩ := formed
    simp only [Expr.mapTokens, Print.expr, writeToken_unplaced, slot_unplaced afterFormed,
      expr_unplaced operandFormed, closeExpression_unplaced trailingFormed]
  | .binary left operator afterOperator right, formed => by
    obtain ⟨leftFormed, _, _, afterFormed, rightFormed⟩ := formed
    simp only [Expr.mapTokens, Print.expr, expr_unplaced leftFormed, writeToken_unplaced,
      slot_unplaced afterFormed, expr_unplaced rightFormed]
  | .grouping afterOpen inner afterClose, formed => by
    obtain ⟨openFormed, innerFormed, closeFormed⟩ := formed
    simp only [Expr.mapTokens, Print.expr, trivia_unplaced openFormed, exprs_unplaced innerFormed,
      closeGrouping_unplaced _ closeFormed]
  | .array afterOpen ⟨elements, endDelimited⟩, formed => by
    obtain ⟨openFormed, elementsFormed⟩ := formed
    simp only [Expr.mapTokens, Print.expr, trivia_unplaced openFormed, entries_unplaced elementsFormed]
  | .literal token after, formed => by
    simp only [Expr.mapTokens, Print.expr, writeToken_unplaced, slot_unplaced formed.2]
  | .identifier token after, formed => by
    simp only [Expr.mapTokens, Print.expr, writeToken_unplaced, slot_unplaced formed.2]
  | .numberStartDot token after, formed => by
    simp only [Expr.mapTokens, Print.expr, writeToken_unplaced, slot_unplaced formed.2]
  | .numberEndDot token after, formed => by
    simp only [Expr.mapTokens, Print.expr, writeToken_unplaced, slot_unplaced formed.2]
  | .unary operator afterOperator operand, formed => by
    obtain ⟨_, afterFormed, operandFormed⟩ := formed
    simp only [Expr.mapTokens, Print.expr, writeToken_unplaced, slot_unplaced afterFormed,
      expr_unplaced operandFormed]
    rfl
  | .step operand operator afterOperator, formed => by
    obtain ⟨operandFormed, _, afterFormed⟩ := formed
    simp only [Expr.mapTokens, Print.expr, writeToken_unplaced, slot_unplaced afterFormed,
      expr_unplaced operandFormed]
  | .assign target operator afterOperator value, formed => by
    obtain ⟨targetFormed, _, afterFormed, valueFormed⟩ := formed
    simp only [Expr.mapTokens, Print.expr, writeToken_unplaced, slot_unplaced afterFormed,
      expr_unplaced targetFormed, expr_unplaced valueFormed]
  | .dotted owner afterDot member trailing, formed => by
    obtain ⟨ownerFormed, dotFormed, memberFormed, trailingFormed⟩ := formed
    simp only [Expr.mapTokens, Print.expr, expr_unplaced ownerFormed, slot_unplaced dotFormed,
      expr_unplaced memberFormed, closeExpression_unplaced trailingFormed]
  | .access collection accessor indices trailing, formed => by
    obtain ⟨collectionFormed, _, indicesFormed, trailingFormed⟩ := formed
    simp only [Expr.mapTokens, Print.expr, expr_unplaced collectionFormed, writeToken_unplaced,
      indexList_unplaced indicesFormed, closeExpression_unplaced trailingFormed]
    rfl
  | .ternary condition afterHook whenTrue afterColon whenFalse, formed => by
    obtain ⟨conditionFormed, hookFormed, trueFormed, colonFormed, falseFormed⟩ := formed
    simp only [Expr.mapTokens, Print.expr, expr_unplaced conditionFormed, slot_unplaced hookFormed,
      expr_unplaced trueFormed, trivia_unplaced colonFormed, expr_unplaced falseFormed]
  | .newline, _ => rfl
  | .lineComment token, _ => rfl
  | .blockComment token, _ => rfl
  | .unidentified token trailing, formed => by
    simp only [Expr.mapTokens, Print.expr, writeToken_unplaced, Token.kind_unplaced,
      closeExpression_unplaced formed.2]

theorem exprs_unplaced : ∀ {exprs : List Expr}, Expr.ListFormed drawn exprs →
    Print.exprs (Expr.mapList Token.unplaced exprs) = Print.exprs exprs
  | [], _ => rfl
  | first :: others, formed => by
    simp only [Expr.mapList, Print.exprs, expr_unplaced formed.1, exprs_unplaced formed.2]

theorem entries_unplaced {endDelimited breakBetween breakAtEnd : Bool} :
    ∀ {items : List (Item Expr)}, Expr.ItemsFormed drawn items →
      entries endDelimited breakBetween breakAtEnd (Expr.mapItems Token.unplaced items) =
        entries endDelimited breakBetween breakAtEnd items
  | [], _ => rfl
  | ⟨value, trailing⟩ :: others, formed => by
    simp only [Expr.mapItems, entries, expr_unplaced formed.1, closeEntry_unplaced _ _ _ _ formed.2.1,
      Expr.mapItems_isEmpty, entries_unplaced formed.2.2]

theorem indexList_unplaced : ∀ {indices : List (Trivia × Expr)}, Expr.IndicesFormed drawn indices →
    indexList (Expr.mapIndices Token.unplaced indices) = indexList indices
  | [], _ => rfl
  | (before, index) :: others, formed => by
    simp only [Expr.mapIndices, indexList, slot_unplaced formed.1, expr_unplaced formed.2.1,
      Expr.mapIndices_isEmpty, indexList_unplaced formed.2.2]

end

theorem repeatedKeyword_unplaced {declared : Variable} (formed : declared.Formed drawn) (indented : Bool) :
    repeatedKeyword (declared.mapTokens Token.unplaced) indented = repeatedKeyword declared indented := by
  obtain ⟨target, keyword, afterKeyword⟩ := declared
  cases keyword with
  | none => rfl
  | some keyword => simp only [Variable.mapTokens, repeatedKeyword, Option.map_some,
      writeToken_unplaced, trivia_unplaced formed.2.2]

theorem variableTrivia_unplaced {slot : Trivia} (formed : SlotFormed drawn slot) (indented : Bool) :
    variableTrivia (slot.map Token.unplaced) indented = variableTrivia slot indented := by
  unfold variableTrivia
  rw [List.isEmpty_map, trivia_unplaced formed]

theorem variableList_unplaced (endDelimited : Bool) {items : List (Item Variable)}
    (formed : Variable.ItemsFormed drawn items) (indented : Bool) :
    variableList endDelimited (items.map (Variable.mapItem Token.unplaced)) indented =
      variableList endDelimited items indented := by
  induction items generalizing indented with
  | nil => rfl
  | cons item others ih =>
    obtain ⟨declared, trailing⟩ := item
    obtain ⟨declaredFormed, trailingFormed⟩ := formed _ List.mem_cons_self
    have later := ih fun item member => formed item (List.mem_cons_of_mem _ member)
    have target := expr_unplaced declaredFormed.1
    simp only [List.map_cons, Variable.mapItem, variableList, repeatedKeyword_unplaced declaredFormed,
      variableTrivia_unplaced trailingFormed, List.isEmpty_map, later]
    simp only [Variable.mapTokens, target]

theorem declaration_unplaced (keyword : Token) {afterKeyword : Trivia} {declared : Series Variable}
    (keywordFormed : SlotFormed drawn afterKeyword)
    (formed : Variable.ItemsFormed drawn declared.items) (written : Bool) :
    declaration keyword.unplaced (afterKeyword.map Token.unplaced) (Variable.mapSeries Token.unplaced declared)
        written =
      declaration keyword afterKeyword declared written := by
  unfold declaration
  simp only [writeToken_unplaced, trivia_unplaced keywordFormed, Variable.mapSeries,
    variableList_unplaced _ formed, List.isEmpty_map]

theorem enumerationMembers_unplaced {afterKeyword : Trivia} {name : Expr} {afterOpen : Trivia}
    {members : Series Expr} (keywordFormed : SlotFormed drawn afterKeyword)
    (nameFormed : name.Formed drawn) (openFormed : SlotFormed drawn afterOpen)
    (membersFormed : Expr.ItemsFormed drawn members.items) :
    enumerationMembers (afterKeyword.map Token.unplaced) (name.mapTokens Token.unplaced)
        (afterOpen.map Token.unplaced)
        (members.mapTokens Token.unplaced) =
      enumerationMembers afterKeyword name afterOpen members := by
  unfold enumerationMembers
  simp only [slot_unplaced keywordFormed, expr_unplaced nameFormed, trivia_unplaced openFormed,
    Series.mapTokens, entries_unplaced membersFormed]

end Print

namespace Stmt

@[simp] theorem hasSemicolon_mapTokens (change : Token → Token) (stmt : Stmt) :
    (stmt.mapTokens change).hasSemicolon = stmt.hasSemicolon := by
  unfold mapTokens
  split <;> rfl

@[simp] theorem isBlock_mapTokens (change : Token → Token) (stmt : Stmt) :
    (stmt.mapTokens change).isBlock = stmt.isBlock := by
  unfold mapTokens
  split <;> rfl

@[simp] theorem isConditional_mapTokens (change : Token → Token) (stmt : Stmt) :
    (stmt.mapTokens change).isConditional = stmt.isConditional := by
  unfold mapTokens
  split <;> rfl

@[simp] theorem isExpression_mapTokens (change : Token → Token) (stmt : Stmt) :
    (stmt.mapTokens change).isExpression = stmt.isExpression := by
  unfold mapTokens
  split <;> rfl

end Stmt

namespace Print

theorem openBlock_unplaced {afterOpen : Trivia} (formed : SlotFormed drawn afterOpen)
    (body : List Stmt) :
    openBlock (afterOpen.map Token.unplaced) (Stmt.mapList Token.unplaced body) =
      openBlock afterOpen body := by
  unfold openBlock
  rw [Stmt.mapList_eq_map, List.length_map, trivia_unplaced formed]
  match body with
  | [] => rfl
  | [only] => simp only [List.map_cons, List.map_nil, Stmt.isExpression_mapTokens]
  | _ :: _ :: _ => rfl

theorem openConditional_unplaced {afterKeyword : Trivia} {condition : Expr}
    (keywordFormed : SlotFormed drawn afterKeyword) (conditionFormed : condition.Formed drawn)
    (hasBlock : Bool) :
    openConditional (afterKeyword.map Token.unplaced) (condition.mapTokens Token.unplaced) hasBlock =
      openConditional afterKeyword condition hasBlock := by
  unfold openConditional
  rw [slot_unplaced keywordFormed, expr_unplaced conditionFormed, Expr.isGrouping_unplaced]

theorem betweenBranches_unplaced {between : Trivia} (formed : SlotFormed drawn between)
    (indented : Bool) :
    betweenBranches (between.map Token.unplaced) indented = betweenBranches between indented := by
  unfold betweenBranches
  simp only [trivia_unplaced formed]

theorem openElse_unplaced {between afterElse : Trivia} (betweenFormed : SlotFormed drawn between)
    (elseFormed : SlotFormed drawn afterElse) (indented continues : Bool) :
    openElse (between.map Token.unplaced) indented (afterElse.map Token.unplaced) continues =
      openElse between indented afterElse continues := by
  unfold openElse
  rw [betweenBranches_unplaced betweenFormed, slot_unplaced elseFormed, trivia_unplaced elseFormed]

theorem openFor_unplaced {afterKeyword afterOpen : Trivia}
    (keywordFormed : SlotFormed drawn afterKeyword) (openFormed : SlotFormed drawn afterOpen) :
    openFor (afterKeyword.map Token.unplaced) (afterOpen.map Token.unplaced) =
      openFor afterKeyword afterOpen := by
  unfold openFor
  rw [slot_unplaced keywordFormed, trivia_unplaced openFormed]

theorem forHeader_unplaced {afterStart : Trivia} {condition : Option Expr} {afterCondition : Trivia}
    {increment : Option Expr} {afterIncrement afterClose : Trivia}
    (startFormed : SlotFormed drawn afterStart) (conditionFormed : OptionFormed drawn condition)
    (afterConditionFormed : SlotFormed drawn afterCondition)
    (incrementFormed : OptionFormed drawn increment)
    (afterIncrementFormed : SlotFormed drawn afterIncrement)
    (closeFormed : SlotFormed drawn afterClose) (moved : Bool) :
    forHeader (afterStart.map Token.unplaced) (condition.map (·.mapTokens Token.unplaced))
        (afterCondition.map Token.unplaced) (increment.map (·.mapTokens Token.unplaced))
        (afterIncrement.map Token.unplaced) moved (afterClose.map Token.unplaced) =
      forHeader afterStart condition afterCondition increment afterIncrement moved afterClose := by
  have conditionSame : ∀ value ∈ condition, Print.expr (value.mapTokens Token.unplaced) = Print.expr value := by
    rintro value rfl
    exact expr_unplaced conditionFormed
  have incrementSame : ∀ value ∈ increment, Print.expr (value.mapTokens Token.unplaced) = Print.expr value := by
    rintro value rfl
    exact expr_unplaced incrementFormed
  unfold forHeader
  rw [slot_unplaced startFormed, slot_unplaced afterConditionFormed,
    trivia_unplaced afterIncrementFormed, slot_unplaced closeFormed]
  cases condition with
  | none => cases increment with
    | none => rfl
    | some increment => simp only [Option.map_some, Option.map_none, incrementSame _ rfl]
  | some condition => cases increment with
    | none => simp only [Option.map_some, Option.map_none, conditionSame _ rfl]
    | some increment => simp only [Option.map_some, conditionSame _ rfl, incrementSame _ rfl]

theorem openBranch_unplaced {label : Option Expr} {afterKeyword afterColon : Trivia}
    (labelFormed : OptionFormed drawn label) (keywordFormed : SlotFormed drawn afterKeyword)
    (colonFormed : SlotFormed drawn afterColon) :
    openBranch (label.map (·.mapTokens Token.unplaced)) (afterKeyword.map Token.unplaced)
        (afterColon.map Token.unplaced) =
      openBranch label afterKeyword afterColon := by
  unfold openBranch
  rw [slot_unplaced keywordFormed, trivia_unplaced colonFormed]
  cases label with
  | none => rfl
  | some label => simp only [Option.map_some, expr_unplaced labelFormed]

theorem jump_unplaced (word : String) {value : Option Expr} (formed : OptionFormed drawn value)
    (written : Bool) :
    jump word (value.map (·.mapTokens Token.unplaced)) written = jump word value written := by
  unfold jump
  cases value with
  | none => rfl
  | some value => simp only [Option.map_some, expr_unplaced formed]

mutual

theorem stmt_unplaced : ∀ {statement : Stmt}, statement.Formed drawn →
    stmt (statement.mapTokens Token.unplaced) = stmt statement
  | .declaration keyword afterKeyword declared written, formed => by
    obtain ⟨_, keywordFormed, declaredFormed⟩ := formed
    simp only [Stmt.mapTokens, stmt, declaration_unplaced _ keywordFormed declaredFormed,
      Stmt.hasSemicolon, Stmt.isRemark]
  | .enumeration afterKeyword name afterOpen members written, formed => by
    obtain ⟨keywordFormed, nameFormed, openFormed, membersFormed⟩ := formed
    simp only [Stmt.mapTokens, stmt, Stmt.hasSemicolon, Stmt.isRemark,
      enumerationMembers_unplaced keywordFormed nameFormed openFormed membersFormed]
  | .expression value written, formed => by
    simp only [Stmt.mapTokens, stmt, Stmt.hasSemicolon, Stmt.isRemark, expr_unplaced formed]
  | .block afterOpen body written, formed => by
    simp only [Stmt.mapTokens, stmt, Stmt.hasSemicolon, Stmt.isRemark, openBlock_unplaced formed.1,
      blockStmts_unplaced formed.2]
  | .conditional afterKeyword test whenTrue between afterElse none written, formed => by
    obtain ⟨keywordFormed, testFormed, trueFormed, betweenFormed, _⟩ := formed
    simp only [Stmt.mapTokens, stmt, Stmt.hasSemicolon, Stmt.isRemark, Stmt.isBlock_mapTokens,
      openConditional_unplaced keywordFormed testFormed, stmt_unplaced trueFormed,
      betweenBranches_unplaced betweenFormed]
  | .conditional afterKeyword test whenTrue between afterElse (some whenFalse) written, formed => by
    obtain ⟨keywordFormed, testFormed, trueFormed, betweenFormed, elseFormed, falseFormed⟩ := formed
    simp only [Stmt.mapTokens, stmt, Stmt.hasSemicolon, Stmt.isRemark, Stmt.isBlock_mapTokens,
      Stmt.isConditional_mapTokens, openConditional_unplaced keywordFormed testFormed,
      stmt_unplaced trueFormed, openElse_unplaced betweenFormed elseFormed, stmt_unplaced falseFormed]
  | .loop keyword afterKeyword test body written, formed => by
    obtain ⟨_, keywordFormed, testFormed, bodyFormed⟩ := formed
    simp only [Stmt.mapTokens, stmt, Stmt.hasSemicolon, Stmt.isRemark, openLoop, writeToken_unplaced,
      slot_unplaced keywordFormed, expr_unplaced testFormed, stmt_unplaced bodyFormed]
  | .doUntil afterKeyword body between test written, formed => by
    obtain ⟨keywordFormed, bodyFormed, betweenFormed, testFormed⟩ := formed
    simp only [Stmt.mapTokens, stmt, Stmt.hasSemicolon, Stmt.isRemark, openDo, closeDo,
      slot_unplaced keywordFormed, stmt_unplaced bodyFormed, slot_unplaced betweenFormed,
      expr_unplaced testFormed]
  | .forLoop afterKeyword afterOpen none afterStart test afterCondition increment afterIncrement
      afterClose body written, formed => by
    obtain ⟨keywordFormed, openFormed, startFormed, testFormed, conditionFormed, incrementFormed,
      afterIncrementFormed, closeFormed, bodyFormed⟩ := formed
    simp only [Stmt.mapTokens, stmt, Stmt.hasSemicolon, Stmt.isRemark,
      openFor_unplaced keywordFormed openFormed, forHeader_unplaced startFormed testFormed
        conditionFormed incrementFormed afterIncrementFormed closeFormed, stmt_unplaced bodyFormed]
  | .forLoop afterKeyword afterOpen (some start) afterStart test afterCondition increment
      afterIncrement afterClose body written, formed => by
    obtain ⟨keywordFormed, openFormed, firstFormed, startFormed, testFormed, conditionFormed,
      incrementFormed, afterIncrementFormed, closeFormed, bodyFormed⟩ := formed
    simp only [Stmt.mapTokens, stmt, Stmt.hasSemicolon, Stmt.isRemark,
      openFor_unplaced keywordFormed openFormed, stmt_unplaced firstFormed,
      forHeader_unplaced startFormed testFormed conditionFormed incrementFormed afterIncrementFormed
        closeFormed, stmt_unplaced bodyFormed]
  | .switch afterKeyword subject afterOpen cases written, formed => by
    obtain ⟨keywordFormed, subjectFormed, openFormed, casesFormed⟩ := formed
    simp only [Stmt.mapTokens, stmt, Stmt.hasSemicolon, Stmt.isRemark, openSwitch,
      slot_unplaced keywordFormed, expr_unplaced subjectFormed, trivia_unplaced openFormed,
      branches_unplaced casesFormed]
  | .returning value written, formed => by
    simp only [Stmt.mapTokens, stmt, Stmt.hasSemicolon, Stmt.isRemark, jump_unplaced _ formed]
  | .breaking written, _ => rfl
  | .exiting written, _ => rfl
  | .remark form token, _ => rfl
  | .define afterKeyword name body, formed => by
    obtain ⟨keywordFormed, nameFormed, bodyFormed⟩ := formed
    simp only [Stmt.mapTokens, stmt, Stmt.hasSemicolon, Stmt.isRemark, openDefine,
      slot_unplaced keywordFormed, expr_unplaced nameFormed, stmts_unplaced bodyFormed]

theorem stmts_unplaced : ∀ {statements : List Stmt}, Stmt.ListFormed drawn statements →
    stmts (Stmt.mapList Token.unplaced statements) = stmts statements
  | [], _ => rfl
  | first :: others, formed => by
    simp only [Stmt.mapList, stmts, stmt_unplaced formed.1, stmts_unplaced formed.2]

theorem blockStmts_unplaced {onLines : Bool} :
    ∀ {statements : List Stmt}, Stmt.ListFormed drawn statements →
      blockStmts onLines (Stmt.mapList Token.unplaced statements) = blockStmts onLines statements
  | [], _ => rfl
  | first :: others, formed => by
    simp only [Stmt.mapList, blockStmts, stmt_unplaced formed.1, Stmt.hasSemicolon_mapTokens,
      blockStmts_unplaced formed.2]

theorem branches_unplaced : ∀ {cases : List (Case Stmt)}, Stmt.CasesFormed drawn cases →
    branches (Stmt.mapCases Token.unplaced cases) = branches cases
  | [], _ => rfl
  | ⟨label, afterKeyword, afterColon, body⟩ :: others, formed => by
    obtain ⟨labelFormed, keywordFormed, colonFormed, bodyFormed, othersFormed⟩ := formed
    simp only [Stmt.mapCases, branches, openBranch_unplaced labelFormed keywordFormed colonFormed,
      stmts_unplaced bodyFormed, branches_unplaced othersFormed]

end

end Print

theorem layOut_unplaced (settings : Settings) {program : List Stmt}
    (formed : Stmt.ListFormed drawn program) :
    layOut settings (Stmt.mapList Token.unplaced program) = layOut settings program := by
  unfold layOut Print.program
  rw [Print.stmts_unplaced formed]

end GmlLayout
