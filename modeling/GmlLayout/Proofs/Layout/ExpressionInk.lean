import GmlLayout.Proofs.Layout.Ink

/-!
An expression puts exactly its leaves on the page, in their order: nothing that stands there is taken
back, whatever the page looks like.
-/

namespace GmlLayout.Print

variable (keep : String → Bool) (page : Page)

@[simp] theorem kept_write (content : String) (spaceAfter : Bool) :
    (after (write content spaceAfter) page).kept keep =
      page.kept keep ++ (textInk content).filter keep :=
  Page.kept_write keep page content spaceAfter

@[simp] theorem kept_writeToken (token : Token) (spaceAfter : Bool) :
    (after (writeToken token spaceAfter) page).kept keep =
      page.kept keep ++ (textInk token.lexeme).filter keep :=
  Page.kept_writeToken keep page token spaceAfter

@[simp] theorem kept_trivia (slot : Trivia) (how : Instruction) :
    (after (trivia slot how) page).kept keep = page.kept keep ++ keptInk keep (slotLeaves slot) :=
  Page.kept_trivia keep page slot how

@[simp] theorem kept_slot (slot : Trivia) (how : Instruction) :
    (after (Print.slot slot how) page).kept keep = page.kept keep ++ keptInk keep (slotLeaves slot) :=
  Page.kept_trivia keep page slot how

@[simp] theorem kept_dropSpace : (after dropSpace page).kept keep = page.kept keep :=
  Page.kept_dropSpace keep page

@[simp] theorem kept_dropBlanks : (after dropBlanks page).kept keep = page.kept keep :=
  Page.kept_dropBlanks keep page

@[simp] theorem kept_ensureSpace : (after ensureSpace page).kept keep = page.kept keep :=
  Page.kept_ensureSpace keep page

@[simp] theorem kept_newline (move : Move) : (after (newline move) page).kept keep = page.kept keep :=
  Page.kept_newline keep page move

@[simp] theorem kept_closeExpression (trailing : Trivia) :
    (after (closeExpression trailing) page).kept keep =
      page.kept keep ++ keptInk keep (slotLeaves trailing) := by
  simp [closeExpression]

@[simp] theorem kept_closeEntry (endDelimited breakBetween breakAtEnd isLast : Bool) (trailing : Trivia) :
    (after (closeEntry endDelimited breakBetween breakAtEnd isLast trailing) page).kept keep =
      page.kept keep ++ keptInk keep (delimiterLeaves endDelimited isLast)
        ++ keptInk keep (slotLeaves trailing) := by
  unfold closeEntry delimiterLeaves
  by_cases empty : trailing = []
  · subst empty
    cases isLast <;> cases endDelimited <;> simp [slotLeaves, Leaf.ink, Symbol.text]
  · have some : trailing.isEmpty = false := by simpa using empty
    cases isLast <;> cases endDelimited <;> simp [some, Leaf.ink, Symbol.text]

@[simp] theorem kept_closeCall (moved : Bool) (arguments : List (Item Expr)) :
    (after (closeCall moved arguments) page).kept keep =
      page.kept keep ++
        keptInk keep (if passesLambda arguments then [] else [.mark .rightParen]) := by
  unfold closeCall
  by_cases passes : passesLambda arguments = true
  · simp [passes]
  · simp [passes, Leaf.ink, Symbol.text]

@[simp] theorem kept_stepBack : (after stepBack page).kept keep = page.kept keep := by
  unfold stepBack
  rw [after_modify]
  split
  · rename_i blank
    rw [Page.kept_indent]
    exact Page.kept_of_buffer keep (Buffer.ink_dropLine_of_onBlankLine blank)
  · exact Page.kept_newline keep page .left

@[simp] theorem kept_closeGrouping (moved : Bool) (afterClose : Trivia) :
    (after (closeGrouping moved afterClose) page).kept keep =
      page.kept keep ++ (textInk ")").filter keep ++ keptInk keep (slotLeaves afterClose) := by
  simp [closeGrouping]

@[simp] theorem kept_openChain : (after openChain page).kept keep = page.kept keep := rfl

@[simp] theorem kept_closeChain (outermost : Bool) :
    (after (closeChain outermost) page).kept keep = page.kept keep := by
  unfold closeChain
  split <;> rfl

mutual

theorem kept_expr : ∀ (expr : Expr) (page : Page),
    (after (Print.expr expr) page).kept keep = page.kept keep ++ keptInk keep expr.leaves
  | .call callee afterOpen ⟨arguments, endDelimited⟩ trailing, page => by
    simp [Print.expr, Expr.leaves, Leaf.ink, Symbol.text, kept_expr callee, kept_entries]
  | .function afterKeyword signature afterSignature isConstructor trailing, page => by
    cases isConstructor <;>
      simp [Print.expr, Expr.leaves, Leaf.ink, Keyword.text, kept_expr signature]
  | .lifetime operator afterOperator operand trailing, page => by
    simp [Print.expr, Expr.leaves, Leaf.ink, kept_expr operand]
  | .binary left operator afterOperator right, page => by
    simp [Print.expr, Expr.leaves, Leaf.ink, kept_expr left, kept_expr right]
  | .grouping afterOpen inner afterClose, page => by
    simp [Print.expr, Expr.leaves, Leaf.ink, Symbol.text, kept_exprs inner]
  | .array afterOpen ⟨elements, endDelimited⟩, page => by
    simp [Print.expr, Expr.leaves, Leaf.ink, Symbol.text, kept_entries]
  | .literal token after, page => by simp [Print.expr, Expr.leaves, Leaf.ink]
  | .identifier token after, page => by simp [Print.expr, Expr.leaves, Leaf.ink]
  | .numberStartDot token after, page => by simp [Print.expr, Expr.leaves, Leaf.ink]
  | .numberEndDot token after, page => by simp [Print.expr, Expr.leaves, Leaf.ink]
  | .unary operator afterOperator operand, page => by
    simp [Print.expr, Expr.leaves, Leaf.ink, kept_expr operand]
  | .step operand operator afterOperator, page => by
    simp [Print.expr, Expr.leaves, Leaf.ink, kept_expr operand]
  | .assign target operator afterOperator value, page => by
    simp [Print.expr, Expr.leaves, Leaf.ink, kept_expr target, kept_expr value]
  | .dotted owner afterDot member trailing, page => by
    simp [Print.expr, Expr.leaves, Leaf.ink, Symbol.text, kept_expr owner, kept_expr member]
  | .access collection accessor indices trailing, page => by
    simp [Print.expr, Expr.leaves, Leaf.ink, Symbol.text, kept_expr collection, kept_indexList indices]
  | .ternary condition afterHook whenTrue afterColon whenFalse, page => by
    simp [Print.expr, Expr.leaves, Leaf.ink, Symbol.text, kept_expr condition, kept_expr whenTrue,
      kept_expr whenFalse]
  | .newline, page => by simp [Print.expr, Expr.leaves]
  | .lineComment token, page => by simp [Print.expr, Expr.leaves, Leaf.ink]
  | .blockComment token, page => by simp [Print.expr, Expr.leaves, Leaf.ink]
  | .unidentified token trailing, page => by simp [Print.expr, Expr.leaves, Leaf.ink]

theorem kept_exprs : ∀ (exprs : List Expr) (page : Page),
    (after (Print.exprs exprs) page).kept keep = page.kept keep ++ keptInk keep (Expr.listLeaves exprs)
  | [], page => by simp [Print.exprs, Expr.listLeaves]
  | first :: others, page => by
    simp [Print.exprs, Expr.listLeaves, kept_expr first, kept_exprs others]

theorem kept_entries (endDelimited breakBetween breakAtEnd : Bool) :
    ∀ (items : List (Item Expr)) (page : Page),
    (after (entries endDelimited breakBetween breakAtEnd items) page).kept keep =
      page.kept keep ++ keptInk keep (Expr.entryLeaves endDelimited items)
  | [], page => by simp [entries, Expr.entryLeaves]
  | ⟨value, trailing⟩ :: others, page => by
    simp [entries, Expr.entryLeaves, kept_expr value, kept_entries _ _ _ others]

theorem kept_indexList : ∀ (indices : List (Trivia × Expr)) (page : Page),
    (after (indexList indices) page).kept keep = page.kept keep ++ keptInk keep (Expr.indexLeaves indices)
  | [], page => by simp [indexList, Expr.indexLeaves]
  | (before, index) :: others, page => by
    cases last : others.isEmpty <;>
      simp [indexList, Expr.indexLeaves, delimiterLeaves, Leaf.ink, Symbol.text, last, kept_expr index,
        kept_indexList others]

end

end GmlLayout.Print
