import GmlLayout.Proofs.Layout.StatementInk
import GmlLayout.Proofs.Tree.Nesting
import GmlLayout.Proofs.Tree.Punctuated
import GmlLayout.Proofs.Tree.Sheltered

/-!
Where the layout writes semicolons. The marks that it adds to a page are those of the tree in their order,
with semicolons at places that are known from the tree alone. Line comments are no marks, so it does not
matter that a semicolon is put in front of them.
-/

namespace GmlLayout

theorem isCode_of_isNestMark {text : String} (marked : isNestMark text = true) : isCode text = true := by
  unfold isNestMark NestMark.ofText? at marked
  split at marked
  case h_14 => cases marked
  all_goals rfl

theorem filter_semicolonInk : (textInk ";").filter isNestMark = [";"] := by
  decide

def isClosing (text : String) : Bool :=
  text = ";" || text = "\x7d"

namespace Buffer

theorem trailsCode_text (content : String) : trailsCode (.text content) = !isCode content := by
  rw [isCode, Bool.not_not]
  rfl

theorem filter_trailing {fragment : Fragment} (trails : trailsCode fragment = true) :
    fragment.ink.filter isCode = [] ∧ fragment.ink.filter isNestMark = [] := by
  cases fragment with
  | text content =>
    have comment : isCode content = false := by rwa [trailsCode_text, Bool.not_eq_true'] at trails
    have unmarked : isNestMark content = false :=
      eq_false_of_ne_true fun marked => Bool.false_ne_true (comment.symm.trans (isCode_of_isNestMark marked))
    simp [Fragment.ink, comment, unmarked]
  | space | tab | newline => exact ⟨rfl, rfl⟩

theorem marks_trailing {buffer : Buffer} (trails : ∀ fragment ∈ buffer, trailsCode fragment = true) :
    (ink buffer).filter isNestMark = [] := by
  induction buffer with
  | nil => rfl
  | cons fragment buffer ih =>
    rw [ink, List.filter_append, ih fun other member => trails other (List.mem_cons_of_mem _ member)]
    exact (filter_trailing (trails fragment List.mem_cons_self)).2

theorem head?_code (buffer : Buffer) :
    buffer.code.head? = ((ink buffer).filter isCode).getLast?.map Fragment.text := by
  have code_cons : ∀ (fragment : Fragment) (buffer : Buffer),
      code (fragment :: buffer) = if trailsCode fragment then code buffer else fragment :: buffer :=
    fun _ _ => List.dropWhile_cons
  induction buffer with
  | nil => rfl
  | cons fragment buffer ih =>
    rw [code_cons, ink, List.filter_append]
    split
    · rename_i trails
      rw [ih, (filter_trailing trails).1, List.append_nil]
    · rename_i ends
      cases fragment with
      | text content =>
        have shown : isCode content = true := by
          rwa [trailsCode_text, Bool.not_eq_true, Bool.not_eq_false'] at ends
        simp [Fragment.ink, shown]
      | space | tab | newline => exact absurd rfl ends

end Buffer

namespace Page

variable (page : Page)

theorem marks_writeSemicolon : page.writeSemicolon.kept isNestMark = page.kept isNestMark ++ [";"] := by
  simp [writeSemicolon, filter_semicolonInk]

theorem marks_placeSemicolon : page.placeSemicolon.kept isNestMark = page.kept isNestMark ++ [";"] := by
  unfold placeSemicolon
  split
  · exact page.marks_writeSemicolon
  · have behind : (Buffer.ink page.buffer.afterCode).filter isNestMark = [] :=
      Buffer.marks_trailing (List.all_eq_true.mp List.all_takeWhile)
    have whole := congrArg Buffer.ink page.buffer.afterCode_append_code
    rw [Buffer.ink_append] at whole
    rw [kept, kept, ← whole, Buffer.ink_append, Buffer.ink]
    rw [List.filter_append, List.filter_append, List.filter_append, behind, List.append_nil, List.append_nil]
    rfl

def Closed : Prop :=
  (page.kept isCode).getLast?.any isClosing = true

end Page

namespace Print

open Page

/-- The end of a statement adds no mark or one semicolon, and that only where the statement is neither
closed nor exempt and its code is not closed either. -/
theorem marks_terminate (closed : Bool) (page : Page) :
    (after (terminate closed) page).kept isNestMark = page.kept isNestMark ∨
      closed = false ∧ page.exemptions = 0 ∧ ¬page.Closed ∧
        (after (terminate closed) page).kept isNestMark = page.kept isNestMark ++ [";"] := by
  let bare := (after takeExemption page).dropBlanks.2
  have same : bare.kept isNestMark = page.kept isNestMark := Page.kept_dropBlanks isNestMark _
  have code : bare.buffer.code.head? = (page.kept isCode).getLast?.map Fragment.text := by
    rw [Buffer.head?_code]
    exact congrArg (fun texts => (List.getLast? texts).map Fragment.text) (Page.kept_dropBlanks isCode _)
  have exempt : given takeExemption page = decide (0 < page.exemptions) := rfl
  unfold terminate
  rw [after_bind, exempt]
  split
  · rename_i unended
    have neither : closed = false ∧ page.exemptions = 0 := by simpa using unended
    rw [after_bind, after_bind]
    split
    · split
      · exact .inl ((kept_newlines _ _ _).trans same)
      · exact .inl ((kept_newlines _ _ _).trans same)
      · rename_i noSemicolon noBrace
        refine .inr ⟨neither.1, neither.2, fun isClosed => ?_, ?_⟩
        · rw [Page.Closed, Option.any_eq_true] at isClosed
          obtain ⟨last, ends, closing⟩ := isClosed
          rw [ends] at code
          rw [isClosing, Bool.or_eq_true, decide_eq_true_eq, decide_eq_true_eq] at closing
          obtain rfl | rfl := closing
          · exact noSemicolon code
          · exact noBrace code
        · exact (kept_newlines _ _ _).trans ((marks_placeSemicolon _).trans (congrArg (· ++ [";"]) same))
    · exact .inl same
  · exact .inl rfl

end Print

/-- From one page to a later one nothing but these marks is added, in their order; some may be missing. -/
def Adds (marks : List String) (before after : Page) : Prop :=
  (after.kept isNestMark).Sublist (before.kept isNestMark ++ marks)

namespace Adds

variable {first second marks : List String} {before middle later : Page}

theorem of_kept (same : later.kept isNestMark = before.kept isNestMark ++ marks) : Adds marks before later := by
  unfold Adds
  exact same ▸ List.Sublist.refl _

theorem trans (front : Adds first before middle) (back : Adds second middle later) :
    Adds (first ++ second) before later := by
  rw [Adds, ← List.append_assoc]
  exact List.Sublist.trans back (front.append_right second)

theorem then_kept (front : Adds first before middle)
    (same : later.kept isNestMark = middle.kept isNestMark ++ second) : Adds (first ++ second) before later :=
  front.trans (of_kept same)

theorem then_same (front : Adds marks before middle) (same : later.kept isNestMark = middle.kept isNestMark) :
    Adds marks before later := by
  rwa [Adds, same]

theorem after_kept (same : middle.kept isNestMark = before.kept isNestMark ++ first)
    (back : Adds second middle later) : Adds (first ++ second) before later :=
  (of_kept same).trans back

end Adds

namespace Print

open Page

theorem marks_semicolonLeaves (possible : Bool) :
    keptInk isNestMark (semicolonLeaves possible) = if possible then [";"] else [] := by
  cases possible <;> rfl

theorem adds_terminate {closed possible : Bool} {page : Page}
    (ready : closed = true ∨ 0 < page.exemptions ∨ page.Closed ∨ possible = true) :
    Adds (keptInk isNestMark (semicolonLeaves possible)) page (after (terminate closed) page) := by
  obtain same | ⟨unclosed, unexempt, unended, added⟩ := marks_terminate closed page
  · rw [Adds, same]
    exact List.sublist_append_left _ _
  · have isPossible : possible = true := by
      obtain isClosed | isExempt | ended | isPossible := ready
      · cases unclosed.symm.trans isClosed
      · omega
      · exact absurd ended unended
      · exact isPossible
    rw [isPossible]
    exact .of_kept added

end Print

open Print

/-- A statement ends with the semicolon it was written with, or without one if it is exempt. -/
theorem Adds.closed {written possible : Bool} {marks : List String} {before page : Page}
    (laid : Adds marks before page) (ready : 0 < page.exemptions ∨ possible = true) :
    Adds (marks ++ keptInk isNestMark (semicolonLeaves (written || possible))) before
      (after (terminate (written || false)) (after (semicolonIf written) page)) := by
  cases written with
  | true =>
    exact (laid.then_kept page.marks_writeSemicolon).then_same
      ((marks_terminate true _).resolve_right fun unclosed => Bool.false_ne_true unclosed.1.symm)
  | false => exact laid.trans (adds_terminate (.inr (ready.imp_right .inr)))

theorem Adds.separated {written : Bool} {marks : List String} {before page : Page}
    (laid : Adds marks before page) : Adds (marks ++ keptInk isNestMark [.mark .semicolon]) before
      (after (terminate (written || false)) (after (semicolonIf written) page)) := by
  have closed := @Adds.closed written true _ _ _ laid (.inr rfl)
  rwa [Bool.or_true] at closed

/-- A statement ends with the semicolon or the closing brace that it has written itself. -/
theorem Adds.ended {closed : Bool} {marks : List String} {before page : Page} (laid : Adds marks before page)
    (ready : closed = true ∨ page.Closed) : Adds marks before (after (terminate closed) page) := by
  have none : Adds [] page (after (terminate closed) page) :=
    @adds_terminate _ false _ (ready.imp_right fun ends => .inr (.inl ends))
  rw [← List.append_nil marks]
  exact laid.trans none

theorem Adds.closing {marks : List String} {before page later : Page} {leaves : List Leaf}
    (laid : Adds marks before page) (kept : ∀ keep, later.kept keep = page.kept keep ++ keptInk keep leaves)
    (closes : (keptInk isCode leaves).getLast?.any isClosing = true) (closed : Bool) :
    Adds (marks ++ keptInk isNestMark leaves) before (after (terminate closed) later) := by
  refine (laid.then_kept (kept isNestMark)).ended (.inr ?_)
  rw [Option.any_eq_true] at closes
  obtain ⟨last, ends, closing⟩ := closes
  rw [Page.Closed, kept isCode, List.getLast?_append, ends]
  exact closing

theorem closes_semicolon (leaves : List Leaf) :
    (keptInk isCode (leaves ++ [.mark .semicolon])).getLast?.any isClosing = true := by
  have semicolon : keptInk isCode [.mark .semicolon] = [";"] := by decide
  rw [keptInk_append, semicolon, List.getLast?_concat]
  rfl

theorem closes_closingLeaves (written : Bool) :
    (keptInk isCode (closingLeaves written)).getLast?.any isClosing = true := by
  cases written <;> decide

namespace Print

open Page

variable (page : Page)

variable {keep : String → Bool}

/-! What the parts of a statement write, the semicolons included. -/

theorem kept_semicolonIf_punctuated (written : Bool) :
    (after (semicolonIf written) page).kept keep =
      page.kept keep ++ keptInk keep (semicolonLeaves written) := by
  cases written with
  | false => exact (List.append_nil _).symm
  | true => simp [semicolonIf, semicolonLeaves, writeSemicolon, Leaf.ink, Symbol.text]

theorem kept_forHeader_punctuated (afterStart : Trivia) (condition : Option Expr) (afterCondition : Trivia)
    (increment : Option Expr) (afterIncrement : Trivia) (moved : Bool) (afterClose : Trivia) :
    (after (forHeader afterStart condition afterCondition increment afterIncrement moved afterClose)
        page).kept keep =
      page.kept keep ++
        keptInk keep
          (headerPunctuated afterStart condition afterCondition increment afterIncrement afterClose) := by
  unfold forHeader headerPunctuated
  cases condition <;> cases increment <;> simp [optionLeaves, kept_expr, Leaf.ink, Symbol.text]

theorem kept_semicolonAndNewline_punctuated (written : Bool) (move : Move) :
    (after (semicolonAndNewline written move) page).kept keep =
      page.kept keep ++ keptInk keep [.mark .semicolon] := by
  cases written <;> simp [semicolonAndNewline, writeSemicolon, Leaf.ink, Symbol.text]

theorem kept_jump_punctuated (word : Keyword) (value : Option Expr) (written : Bool) :
    (after (jump word.text value written) page).kept keep =
      page.kept keep ++ keptInk keep ([.word word] ++ optionLeaves value ++ [.mark .semicolon]) := by
  have blank : textInk " " = [] := rfl
  unfold jump
  cases value <;> simp [optionLeaves, kept_expr, kept_semicolonAndNewline_punctuated, blank, Leaf.ink]

theorem kept_closeDo_punctuated (between : Trivia) (condition : Expr) (written : Bool) :
    (after (closeDo between condition written) page).kept keep =
      page.kept keep ++ keptInk keep
        (slotLeaves between ++ [.word .untilWord] ++ condition.leaves ++ [.mark .semicolon]) := by
  simp [closeDo, kept_expr, kept_semicolonAndNewline_punctuated, Leaf.ink, Keyword.text]

theorem kept_closeBlock_punctuated (request : BlockRequest) (onLines written : Bool) :
    (after (closeBlock request onLines written) page).kept keep =
      page.kept keep ++ keptInk keep (closingLeaves written) := by
  simp [closeBlock, closingLeaves, kept_semicolonIf_punctuated, Leaf.ink, Symbol.text]

theorem kept_closeSwitch_punctuated (written : Bool) :
    (after (closeSwitch written) page).kept keep =
      page.kept keep ++ keptInk keep (closingLeaves written) := by
  simp [closeSwitch, closingLeaves, kept_semicolonIf_punctuated, Leaf.ink, Symbol.text]

theorem kept_closeEnumeration_punctuated (written : Bool) :
    (after (closeEnumeration written) page).kept keep =
      page.dropLine.kept keep ++ keptInk keep (closingLeaves written) := by
  have dropped : (page.setIndentation .left).dropLine.kept keep = page.dropLine.kept keep := rfl
  simp [closeEnumeration, closingLeaves, kept_semicolonIf_punctuated, Leaf.ink, Symbol.text, dropped]

theorem exists_named (declared : Variable) (indented : Bool) : ∃ named : Page,
    after (modify closeFrame) (after dropSpace (after (expr declared.target) (after (modify openFrame)
      (after (repeatedKeyword declared indented) page)))) = named ∧
    named.kept isNestMark =
      page.kept isNestMark ++ keptInk isNestMark (declared.keywordLeaves ++ declared.target.leaves) ∧
    (declared.target.claims = true ∨ 0 < page.exemptions → 0 < named.exemptions) := by
  refine ⟨_, rfl, ?_, fun some => ?_⟩
  · simp [kept_expr]
  · have named := (grants_repeatedKeyword declared indented).after fun _ => grants_openFrame.after fun _ =>
      (grants_expr declared.target).before fun _ => grants_dropSpace.after fun _ => grants_closeFrame
    exact named.pos declared.target.claims_iff_grants page some

theorem adds_variableList (endDelimited exempt : Bool) (items : List (Item Variable)) (indented : Bool)
    (claimed : exempt = true → variablesClaim items = true ∨ 0 < page.exemptions) :
    Adds (keptInk isNestMark (variablesPunctuated endDelimited exempt items)) page
      (after (variableList endDelimited items indented) page) := by
  induction items generalizing indented page with
  | nil => exact .of_kept (by simp [variableList, variablesPunctuated])
  | cons item others ih =>
    obtain ⟨declared, trailing⟩ := item
    obtain ⟨named, shape, kept, owed⟩ := exists_named page declared indented
    have stillClaimed : exempt = true → variablesClaim others = true ∨ 0 < named.exemptions := by
      intro isExempt
      obtain some | already := claimed isExempt
      · rw [variablesClaim, List.any_cons, Bool.or_eq_true] at some
        exact some.symm.imp_right fun here => owed (.inl here)
      · exact .inr (owed (.inr already))
    unfold variableList
    simp only [after_bind]
    rw [shape]
    unfold variablesPunctuated
    cases others with
    | nil =>
      cases endDelimited with
      | true =>
        refine .of_kept ?_
        simp [kept, delimiterLeaves, semicolonLeaves, variablesPunctuated, Leaf.ink, Symbol.text]
      | false =>
        simp only [List.isEmpty_nil, Bool.not_true, Bool.or_false, if_true, Bool.false_eq_true, if_false,
          Bool.not_false, Bool.true_and, Bool.and_true]
        split
        · rename_i unowed
          rw [Bool.not_eq_true', decide_eq_false_iff_not] at unowed
          have unexempt : exempt = false :=
            eq_false_of_ne_true fun isExempt => unowed ((stillClaimed isExempt).resolve_left Bool.false_ne_true)
          have laid := ((Adds.of_kept kept).then_kept named.marks_placeSemicolon).then_kept
            (kept_variableTrivia _ trailing (given (repeatedKeyword declared indented) page))
          simpa [unexempt, delimiterLeaves, marks_semicolonLeaves, variablesPunctuated] using laid
        · have skipped : Adds (keptInk isNestMark (semicolonLeaves !exempt)) named named :=
            List.sublist_append_left _ _
          have laid := ((Adds.of_kept kept).trans skipped).then_kept
            (kept_variableTrivia _ trailing (given (repeatedKeyword declared indented) page))
          simpa [delimiterLeaves, variablesPunctuated] using laid
    | cons next others =>
      simp only [List.isEmpty_cons, Bool.not_false, Bool.true_or, if_true, Bool.false_eq_true, if_false,
        after_bind]
      rw [keptInk_append]
      refine .after_kept ?_ (ih _ _ fun isExempt => (stillClaimed isExempt).imp_right fun owes => ?_)
      · simp [kept, delimiterLeaves, semicolonLeaves, Leaf.ink, Symbol.text]
      · have passed := (grants_write "," true).after fun _ => grants_variableTrivia trailing
          (given (repeatedKeyword declared indented) page)
        exact Nat.lt_of_lt_of_eq owes (passed named).symm

theorem adds_declaration (keyword : Token) (afterKeyword : Trivia) (declared : Series Variable)
    (written : Bool) :
    Adds (keptInk isNestMark ([.token keyword] ++ slotLeaves afterKeyword
        ++ variablesPunctuated declared.endDelimited (variablesClaim declared.items) declared.items
        ++ semicolonLeaves (declared.items.isEmpty && written))) page
      (after (declaration keyword afterKeyword declared written) page) := by
  let opening : Print Bool := do
    writeToken keyword true
    trivia afterKeyword { move := .right }
  have listed := adds_variableList (after opening page) declared.endDelimited
    (variablesClaim declared.items) declared.items (given opening page) .inl
  rw [keptInk_append, keptInk_append]
  refine (listed.after_kept ?_).then_kept ?_
  · simp [opening, Leaf.ink]
  · cases none : declared.items.isEmpty <;>
      simp [declaration, opening, none, kept_semicolonIf_punctuated, semicolonLeaves]

theorem adds_dropLine : Adds [] page page.dropLine := by
  rw [Adds, List.append_nil, ← Page.kept_dropLine isNestMark page]
  exact List.sublist_append_left _ _

theorem adds_closeBranch (saved : Int) : Adds [] page (after (closeBranch saved) page) := by
  rw [Adds, List.append_nil, ← kept_closeBranch page saved]
  exact List.sublist_append_left _ _

theorem adds_jump (word : Keyword) (value : Option Expr) (written closed : Bool) :
    Adds (keptInk isNestMark ([.word word] ++ optionLeaves value ++ [.mark .semicolon])) page
      (after (ended closed (jump word.text value written)) page) := by
  have start : Adds [] page page := .of_kept (List.append_nil _).symm
  exact start.closing (fun _ => kept_jump_punctuated page word value written) (closes_semicolon _) closed

mutual

/-- A statement adds its marks in their order, with semicolons at most where they are possible. -/
theorem adds_stmt : ∀ (statement : Stmt) (page : Page),
    Adds (keptInk isNestMark statement.punctuated) page (after (stmt statement) page)
  | .declaration keyword afterKeyword declared written, page => by
    rw [Print.stmt, Stmt.punctuated, keptInk_append]
    have laid := adds_declaration page keyword afterKeyword declared written
    rw [keptInk_append] at laid
    cases written with
    | true =>
      rw [Bool.and_true] at laid
      rw [Bool.not_true, Bool.false_and, Bool.or_false]
      exact laid.ended (.inl rfl)
    | false =>
      rw [Bool.and_false, show semicolonLeaves false = [] from rfl, keptInk_nil, List.append_nil] at laid
      refine laid.trans (adds_terminate ?_)
      cases claimed : variablesClaim declared.items with
      | true => exact .inr (.inl (claims_declaration keyword afterKeyword declared false page (.inl claimed)))
      | false => exact .inr (.inr (.inr (Bool.or_true _)))
  | .enumeration afterKeyword name afterOpen members written, page => by
    rw [Print.stmt, Stmt.punctuated, keptInk_append]
    have opened := (adds_dropLine _).after_kept
      (kept_enumerationMembers page afterKeyword name afterOpen members)
    rw [List.append_nil] at opened
    exact opened.closing (fun _ => kept_closeEnumeration_punctuated _ written) (closes_closingLeaves written) _
  | .expression value written, page => by
    rw [Print.stmt, Stmt.punctuated, keptInk_append]
    have laid : Adds (keptInk isNestMark value.leaves) page (after (expr value) page) :=
      .of_kept (kept_expr isNestMark value page)
    refine laid.closed ?_
    cases claimed : value.claims with
    | true => exact .inl (claims_expr value page (.inl claimed))
    | false => exact .inr rfl
  | .block afterOpen body written, page => by
    rw [Print.stmt, Stmt.punctuated, keptInk_append, keptInk_append]
    have filled := (adds_blockStmts (given (openBlock afterOpen body) page).2 body _).after_kept
      (kept_openBlock page afterOpen body)
    exact filled.closing (fun _ => kept_closeBlock_punctuated _ _ _ written) (closes_closingLeaves written) _
  | .conditional afterKeyword test whenTrue between afterElse none written, page => by
    rw [Print.stmt, Stmt.punctuated, keptInk_append, keptInk_append, keptInk_append]
    have filled := (adds_stmt whenTrue _).after_kept
      (kept_openConditional page afterKeyword test whenTrue.isBlock)
    refine (filled.then_kept (kept_betweenBranches _ between _)).closed ?_
    cases remarked : hasRemark between with
    | true => exact .inl (claims_betweenBranches between _ _ (.inl remarked))
    | false => exact .inr rfl
  | .conditional afterKeyword test whenTrue between afterElse (some whenFalse) written, page => by
    rw [Print.stmt, Stmt.punctuated, keptInk_append, keptInk_append, keptInk_append, keptInk_append]
    have first := (adds_stmt whenTrue _).after_kept
      (kept_openConditional page afterKeyword test whenTrue.isBlock)
    have second := (first.then_kept (kept_openElse _ between
      (given (openConditional afterKeyword test whenTrue.isBlock) page) afterElse
        (whenFalse.isBlock || whenFalse.isConditional))).trans (adds_stmt whenFalse _)
    exact (second.then_same (kept_closeElse _ _ _)).separated
  | .loop keyword afterKeyword test body written, page => by
    rw [Print.stmt, Stmt.punctuated, keptInk_append, keptInk_append]
    exact ((adds_stmt body _).after_kept (kept_openLoop page keyword afterKeyword test)).separated
  | .doUntil afterKeyword body between test written, page => by
    rw [Print.stmt, Stmt.punctuated, keptInk_append, keptInk_append]
    have filled := (adds_stmt body _).after_kept (kept_openDo page afterKeyword)
    exact filled.closing (fun _ => kept_closeDo_punctuated _ between test written) (closes_semicolon _) _
  | .forLoop afterKeyword afterOpen none afterStart test afterCondition increment afterIncrement
      afterClose body written, page => by
    rw [Print.stmt, Stmt.punctuated, keptInk_append, keptInk_append, keptInk_append, keptInk_append]
    have opened := (Adds.of_kept (kept_openFor page afterKeyword afterOpen)).then_kept
      (kept_write isNestMark (after (openFor afterKeyword afterOpen) page) ";" true)
    have headed := opened.then_kept (kept_forHeader_punctuated _ afterStart test afterCondition increment
      afterIncrement (given (openFor afterKeyword afterOpen) page) afterClose)
    exact (headed.trans (adds_stmt body _)).separated
  | .forLoop afterKeyword afterOpen (some start) afterStart test afterCondition increment
      afterIncrement afterClose body written, page => by
    rw [Print.stmt, Stmt.punctuated, keptInk_append, keptInk_append, keptInk_append, keptInk_append]
    have started := (adds_stmt start _).after_kept (kept_openFor page afterKeyword afterOpen)
    have spaced := started.then_same (kept_ensureSpace isNestMark _)
    have headed := spaced.then_kept (kept_forHeader_punctuated _ afterStart test afterCondition increment
      afterIncrement (given (openFor afterKeyword afterOpen) page) afterClose)
    exact (headed.trans (adds_stmt body _)).separated
  | .switch afterKeyword subject afterOpen cases written, page => by
    rw [Print.stmt, Stmt.punctuated, keptInk_append, keptInk_append]
    have filled := (adds_branches cases _).after_kept (kept_openSwitch page afterKeyword subject afterOpen)
    exact filled.closing (fun _ => kept_closeSwitch_punctuated _ written) (closes_closingLeaves written) _
  | .returning value written, page => by
    rw [Print.stmt, Stmt.punctuated]
    exact adds_jump page .returnWord value written _
  | .breaking written, page => by
    rw [Print.stmt, Stmt.punctuated]
    exact adds_jump page .breakWord none written _
  | .exiting written, page => by
    rw [Print.stmt, Stmt.punctuated]
    exact adds_jump page .exitWord none written _
  | .remark form token, page => by
    rw [Print.stmt, Stmt.punctuated]
    have laid : Adds (keptInk isNestMark [.token token]) page (after (remark form token) page) :=
      .of_kept (by simp [Leaf.ink])
    exact laid.ended (.inl rfl)
  | .define afterKeyword name body, page => by
    rw [Print.stmt, Stmt.punctuated, keptInk_append, keptInk_append]
    have filled := (adds_stmts body _).after_kept (kept_openDefine page afterKeyword name)
    exact filled.trans (@adds_terminate _ true _ (.inr (.inr (.inr rfl))))

theorem adds_stmts : ∀ (statements : List Stmt) (page : Page),
    Adds (keptInk isNestMark (Stmt.listPunctuated statements)) page (after (stmts statements) page)
  | [], page => .of_kept (by simp [stmts, Stmt.listPunctuated])
  | first :: others, page => by
    rw [Print.stmts, Stmt.listPunctuated, keptInk_append]
    exact (adds_stmt first page).trans (adds_stmts others _)

theorem adds_blockStmts (onLines : Bool) : ∀ (statements : List Stmt) (page : Page),
    Adds (keptInk isNestMark (Stmt.listPunctuated statements)) page
      (after (blockStmts onLines statements) page)
  | [], page => .of_kept (by simp [blockStmts, Stmt.listPunctuated])
  | first :: others, page => by
    rw [Print.blockStmts, Stmt.listPunctuated, keptInk_append]
    have closed := (adds_stmt first page).then_same (kept_closeBlockStatement _ onLines first.hasSemicolon)
    exact closed.trans (adds_blockStmts onLines others _)

theorem adds_branches : ∀ (cases : List (Case Stmt)) (page : Page),
    Adds (keptInk isNestMark (Stmt.casesPunctuated cases)) page (after (branches cases) page)
  | [], page => .of_kept (by simp [branches, Stmt.casesPunctuated])
  | ⟨label, afterKeyword, afterColon, body⟩ :: others, page => by
    rw [Print.branches, Stmt.casesPunctuated, keptInk_append, keptInk_append]
    have filled := (adds_stmts body _).after_kept (kept_openBranch page label afterKeyword afterColon)
    have closed := filled.trans (adds_closeBranch _ (given (openBranch label afterKeyword afterColon) page))
    rw [List.append_nil] at closed
    exact closed.trans (adds_branches others _)

end

end Print

end GmlLayout
