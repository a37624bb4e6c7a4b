import GmlLayout.Proofs.Layout.ExpressionInk

/-!
What the parts of a statement put on the page. Semicolons are left out of the account, since the layout
adds them where the source has none. Two steps tear out a line: the closing brace of an enumeration and
the end of a `switch` branch.
-/

namespace GmlLayout.Print

variable {keep : String → Bool} (unkept : keep ";" = false) (page : Page)

@[simp] theorem kept_setLineEnded (ended : Bool) :
    (after (setLineEnded ended) page).kept keep = page.kept keep :=
  rfl

@[simp] theorem kept_takeExemption : (after takeExemption page).kept keep = page.kept keep := rfl

section

include unkept

theorem kept_semicolonIf (written : Bool) :
    (after (semicolonIf written) page).kept keep = page.kept keep := by
  unfold semicolonIf
  split
  · exact Page.kept_writeSemicolon page unkept
  · rfl

theorem kept_semicolonAndNewline (written : Bool) (move : Move) :
    (after (semicolonAndNewline written move) page).kept keep = page.kept keep := by
  cases written <;> simp [semicolonAndNewline, Page.kept_writeSemicolon _ unkept]

theorem kept_terminate (closed : Bool) :
    (after (terminate closed) page).kept keep = page.kept keep := by
  unfold terminate
  simp only [after_bind, kept_after_ite]
  split
  · split
    · split <;> simp [Page.kept_placeSemicolon _ unkept]
    · simp
  · simp

end

@[simp] theorem kept_repeatedKeyword (declared : Variable) (indented : Bool) :
    (after (repeatedKeyword declared indented) page).kept keep =
      page.kept keep ++ keptInk keep declared.keywordLeaves := by
  unfold repeatedKeyword Variable.keywordLeaves
  cases declared.keyword with
  | none => simp
  | some keyword => simp [Leaf.ink]

@[simp] theorem kept_variableTrivia (trailing : Trivia) (indented : Bool) :
    (after (variableTrivia trailing indented) page).kept keep =
      page.kept keep ++ keptInk keep (slotLeaves trailing) := by
  unfold variableTrivia
  cases trailing <;> simp

section

include unkept

theorem kept_variableList (endDelimited : Bool) (items : List (Item Variable)) (indented : Bool) :
    (after (variableList endDelimited items indented) page).kept keep =
      page.kept keep ++ keptInk keep (variableLeaves endDelimited items) := by
  induction items generalizing indented page with
  | nil => simp [variableList, variableLeaves]
  | cons item others ih =>
    obtain ⟨declared, trailing⟩ := item
    unfold variableList variableLeaves delimiterLeaves
    cases others with
    | nil =>
      cases endDelimited with
      | false => simp [variableLeaves, kept_expr, Page.kept_placeSemicolon _ unkept]
      | true => simp [variableLeaves, kept_expr, Leaf.ink, Symbol.text]
    | cons next others => simp [ih, kept_expr, Leaf.ink, Symbol.text]

theorem kept_declaration (keyword : Token) (afterKeyword : Trivia) (declared : Series Variable)
    (written : Bool) :
    (after (declaration keyword afterKeyword declared written) page).kept keep =
      page.kept keep ++ keptInk keep (Stmt.declaration keyword afterKeyword declared written).leaves := by
  unfold declaration Stmt.leaves
  simp [kept_variableList unkept, kept_semicolonIf unkept, Leaf.ink]

end

@[simp] theorem kept_enumerationMembers (afterKeyword : Trivia) (name : Expr) (afterOpen : Trivia)
    (members : Series Expr) :
    (after (enumerationMembers afterKeyword name afterOpen members) page).kept keep =
      page.kept keep ++ keptInk keep ([.word .enumWord] ++ slotLeaves afterKeyword ++ name.leaves
        ++ [.mark .leftBrace] ++ slotLeaves afterOpen
        ++ Expr.entryLeaves members.endDelimited members.items) := by
  simp [enumerationMembers, kept_expr, kept_entries, Leaf.ink, Symbol.text, Keyword.text]

@[simp] theorem kept_remark (form : RemarkForm) (token : Token) :
    (after (remark form token) page).kept keep = page.kept keep ++ (textInk token.lexeme).filter keep := by
  simp [remark]

@[simp] theorem kept_openBlock (afterOpen : Trivia) (body : List Stmt) :
    (after (openBlock afterOpen body) page).kept keep =
      page.kept keep ++ keptInk keep ([.mark .leftBrace] ++ slotLeaves afterOpen) := by
  simp [openBlock, Leaf.ink, Symbol.text]

@[simp] theorem kept_closeBlockStatement (onLines written : Bool) :
    (after (closeBlockStatement onLines written) page).kept keep = page.kept keep := by
  simp [closeBlockStatement]

theorem kept_closeBlock (unkept : keep ";" = false) (request : BlockRequest) (onLines written : Bool) :
    (after (closeBlock request onLines written) page).kept keep =
      page.kept keep ++ keptInk keep [.mark .rightBrace] := by
  simp [closeBlock, kept_semicolonIf unkept, Leaf.ink, Symbol.text]

@[simp] theorem kept_openConditional (afterKeyword : Trivia) (condition : Expr) (hasBlock : Bool) :
    (after (openConditional afterKeyword condition hasBlock) page).kept keep =
      page.kept keep ++
        keptInk keep ([.word .ifWord] ++ slotLeaves afterKeyword ++ condition.leaves) := by
  simp [openConditional, kept_expr, Leaf.ink, Keyword.text]

@[simp] theorem kept_betweenBranches (between : Trivia) (indented : Bool) :
    (after (betweenBranches between indented) page).kept keep =
      page.kept keep ++ keptInk keep (slotLeaves between) := by
  simp [betweenBranches]

@[simp] theorem kept_openElse (between : Trivia) (indented : Bool) (afterElse : Trivia) (continues : Bool) :
    (after (openElse between indented afterElse continues) page).kept keep =
      page.kept keep ++
        keptInk keep (slotLeaves between ++ [.word .elseWord] ++ slotLeaves afterElse) := by
  simp [openElse, Leaf.ink, Keyword.text]

@[simp] theorem kept_closeElse (continues moved : Bool) :
    (after (closeElse continues moved) page).kept keep = page.kept keep := by
  simp [closeElse]

@[simp] theorem kept_openLoop (keyword : Token) (afterKeyword : Trivia) (condition : Expr) :
    (after (openLoop keyword afterKeyword condition) page).kept keep =
      page.kept keep ++
        keptInk keep ([.token keyword] ++ slotLeaves afterKeyword ++ condition.leaves) := by
  simp [openLoop, kept_expr, Leaf.ink]

@[simp] theorem kept_openDo (afterKeyword : Trivia) :
    (after (openDo afterKeyword) page).kept keep =
      page.kept keep ++ keptInk keep ([.word .doWord] ++ slotLeaves afterKeyword) := by
  simp [openDo, Leaf.ink, Keyword.text]

theorem kept_closeDo (unkept : keep ";" = false) (between : Trivia) (condition : Expr) (written : Bool) :
    (after (closeDo between condition written) page).kept keep =
      page.kept keep ++
        keptInk keep (slotLeaves between ++ [.word .untilWord] ++ condition.leaves) := by
  simp [closeDo, kept_expr, kept_semicolonAndNewline unkept, Leaf.ink, Keyword.text]

@[simp] theorem kept_openFor (afterKeyword afterOpen : Trivia) :
    (after (openFor afterKeyword afterOpen) page).kept keep =
      page.kept keep ++
        keptInk keep ([.word .forWord] ++ slotLeaves afterKeyword ++ [.mark .leftParen]
          ++ slotLeaves afterOpen) := by
  simp [openFor, Leaf.ink, Keyword.text, Symbol.text]

def headerLeaves (afterStart : Trivia) (condition : Option Expr) (afterCondition : Trivia)
    (increment : Option Expr) (afterIncrement afterClose : Trivia) : List Leaf :=
  slotLeaves afterStart ++ optionLeaves condition ++ slotLeaves afterCondition
    ++ optionLeaves increment ++ slotLeaves afterIncrement ++ [.mark .rightParen]
    ++ slotLeaves afterClose

theorem kept_forHeader (unkept : keep ";" = false) (afterStart : Trivia) (condition : Option Expr)
    (afterCondition : Trivia) (increment : Option Expr) (afterIncrement : Trivia) (moved : Bool)
    (afterClose : Trivia) :
    (after (forHeader afterStart condition afterCondition increment afterIncrement moved afterClose)
        page).kept keep =
      page.kept keep ++
        keptInk keep
          (headerLeaves afterStart condition afterCondition increment afterIncrement afterClose) := by
  unfold forHeader headerLeaves
  cases condition <;> cases increment <;>
    simp [optionLeaves, kept_expr, filter_textInk unkept, Leaf.ink, Symbol.text]

@[simp] theorem kept_openSwitch (afterKeyword : Trivia) (subject : Expr) (afterOpen : Trivia) :
    (after (openSwitch afterKeyword subject afterOpen) page).kept keep =
      page.kept keep ++
        keptInk keep ([.word .switchWord] ++ slotLeaves afterKeyword ++ subject.leaves
          ++ [.mark .leftBrace] ++ slotLeaves afterOpen) := by
  simp [openSwitch, kept_expr, Leaf.ink, Keyword.text, Symbol.text]

theorem keptInk_unwritten (slot : Trivia) : keptInk keep (slot.map .unwritten) = [] := by
  induction slot with
  | nil => rfl
  | cons token rest ih => simp [ih, Leaf.ink]

@[simp] theorem kept_openBranch (label : Option Expr) (afterKeyword afterColon : Trivia) :
    (after (openBranch label afterKeyword afterColon) page).kept keep =
      page.kept keep ++
        keptInk keep (labelLeaves label afterKeyword ++ [.mark .colon] ++ slotLeaves afterColon) := by
  unfold openBranch labelLeaves
  cases label with
  | none => simp [keptInk_unwritten, Leaf.ink, Keyword.text, Symbol.text]
  | some label => simp [kept_expr, Leaf.ink, Keyword.text, Symbol.text]

theorem kept_closeSwitch (unkept : keep ";" = false) (written : Bool) :
    (after (closeSwitch written) page).kept keep =
      page.kept keep ++ keptInk keep [.mark .rightBrace] := by
  simp [closeSwitch, kept_semicolonIf unkept, Leaf.ink, Symbol.text]

theorem kept_jump (unkept : keep ";" = false) (word : String) (value : Option Expr) (written : Bool) :
    (after (jump word value written) page).kept keep =
      page.kept keep ++ (textInk word).filter keep ++ keptInk keep (optionLeaves value) := by
  have blank : textInk " " = [] := rfl
  unfold jump
  cases value <;> simp [optionLeaves, kept_expr, kept_semicolonAndNewline unkept, blank]

@[simp] theorem kept_openDefine (afterKeyword : Trivia) (name : Expr) :
    (after (openDefine afterKeyword name) page).kept keep =
      page.kept keep ++ keptInk keep ([.directive] ++ slotLeaves afterKeyword ++ name.leaves) := by
  simp [openDefine, kept_expr, Leaf.ink]

theorem kept_finish : (after finish page).kept keep = page.kept keep := by
  have breaks : ∀ count, Buffer.ink (List.replicate count .newline) = [] := by
    intro count
    apply Buffer.ink_blanks
    intro fragment member
    rw [List.eq_of_mem_replicate member]
    rfl
  refine (Page.kept_of_buffer keep ?_).trans (Page.kept_dropAllBlanks keep page)
  rw [finish, after_modify, Buffer.ink_append, breaks, List.append_nil]

theorem kept_closeBranch (saved : Int) :
    (after (closeBranch saved) page).kept keep ++ page.buffer.lineInk.filter keep = page.kept keep := by
  simpa [closeBranch] using Page.kept_dropLine keep page

theorem kept_closeEnumeration (unkept : keep ";" = false) (written : Bool) :
    (after (closeEnumeration written) page).kept keep =
      page.dropLine.kept keep ++ keptInk keep [.mark .rightBrace] := by
  have dropped : (page.setIndentation .left).dropLine.kept keep = page.dropLine.kept keep := rfl
  simp [closeEnumeration, kept_semicolonIf unkept, Leaf.ink, Symbol.text, dropped]

end GmlLayout.Print
