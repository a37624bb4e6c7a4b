import GmlLayout.Proofs.Layout.Moves

/-!
The same of whole layouts. A layout is steady if it keeps the normal form, comes to the same decisions
under all settings, and ends on corresponding pages. Some steps need a page on which something has been
written; most write something themselves.
-/

namespace GmlLayout.Print

open Page

variable {α β : Type}

/-- From a tidy page of which `pre` holds to a page of which `post` holds, and under other settings from
and to the corresponding pages. -/
def Steady (pre : Page → Prop) (action : Print α) (post : α → Page → Prop) : Prop :=
  ∀ page, page.Tidy → pre page →
    MovesTo action.run page ∧ post (given action page) (after action page)

abbrev Quiet (action : Print α) : Prop :=
  Steady (fun _ => True) action fun _ _ => True

abbrev Inner (action : Print α) : Prop :=
  Steady Begun action fun _ => Begun

/-- Steady from every page on, and something has been written afterwards. -/
abbrev Opens (action : Print α) : Prop :=
  Steady (fun _ => True) action fun _ => Begun

namespace Steady

variable {pre middle : Page → Prop} {action : Print α} {post : α → Page → Prop}

theorem weaken {pre' : Page → Prop} {post' : α → Page → Prop} (steady : Steady pre action post)
    (before : ∀ page, pre' page → pre page) (behind : ∀ value page, post value page → post' value page) :
    Steady pre' action post' := by
  intro page tidy holds
  obtain ⟨moves, ends⟩ := steady page tidy (before page holds)
  exact ⟨moves, behind _ _ ends⟩

theorem inner (steady : Steady (fun _ => True) action post) : Inner action := by
  intro page tidy begun
  obtain ⟨moves, _⟩ := steady page tidy trivial
  exact ⟨moves, moves.kept.begun begun⟩

theorem quiet (steady : Steady (fun _ => True) action post) : Quiet action :=
  steady.weaken (fun _ => id) fun _ _ _ => trivial

theorem bind {next : α → Print β} {ends : β → Page → Prop} (first : Steady pre action post)
    (second : ∀ value, Steady (post value) (next value) ends) : Steady pre (action >>= next) ends := by
  intro page tidy holds
  obtain ⟨front, between⟩ := first page tidy holds
  obtain ⟨back, behind⟩ := second _ _ front.kept.tidy between
  refine ⟨⟨front.kept.trans back.kept, fun settings => ?_⟩, behind⟩
  show (next (action.run (page.under settings)).1).run (action.run (page.under settings)).2 = _
  rw [front.under]
  exact back.under settings

theorem pure {value : α} (ends : ∀ page, pre page → post value page) :
    Steady pre (Pure.pure value) post :=
  fun page tidy holds => ⟨⟨tidy.kept, fun _ => rfl⟩, ends page holds⟩

theorem ite {test : Prop} [Decidable test] {other : Print α} (yes : Steady pre action post)
    (no : Steady pre other post) : Steady pre (if test then action else other) post := by
  split
  · exact yes
  · exact no

theorem optionally {test : Prop} [Decidable test] {step : Print Unit} {rest : Unit → Print α}
    (first : test → Steady pre step fun _ => middle) (skip : ∀ page, pre page → middle page)
    (further : Steady middle (rest ()) post) :
    Steady pre (if test then step >>= rest else rest ()) post := by
  split
  · exact (first ‹_›).bind fun _ => further
  · exact further.weaken skip fun _ _ => id

theorem optional {test : Prop} [Decidable test] {step : Print Unit} {rest : Unit → Print α}
    (first : Steady pre step fun _ => pre) (further : Steady pre (rest ()) post) :
    Steady pre (if test then step >>= rest else rest ()) post :=
  optionally (fun _ => first) (fun _ => id) further

theorem modify {change : Page → Page} {ends : Page → Prop}
    (moves : ∀ page, page.Tidy → pre page → Moves change page ∧ ends (change page)) :
    Steady pre (modify change) fun _ => ends := by
  intro page tidy holds
  obtain ⟨moved, behind⟩ := moves page tidy holds
  refine ⟨⟨moved.kept, fun settings => ?_⟩, behind⟩
  show ((), change (page.under settings)) = _
  rw [moved.under]
  rfl

theorem modifyGet {step : Page → α × Page}
    (moves : ∀ page, page.Tidy → pre page → MovesTo step page ∧ post (step page).1 (step page).2) :
    Steady pre (modifyGet step) post :=
  moves

theorem get {next : Page → Print α} (same : ∀ page, page.Tidy → ∀ settings,
      next (page.under settings) = next page)
    (each : ∀ page, Steady (fun here => here = page ∧ pre page) (next page) post) :
    Steady pre (MonadState.get >>= next) post := by
  intro page tidy holds
  obtain ⟨moves, ends⟩ := each page page tidy ⟨rfl, holds⟩
  refine ⟨⟨moves.kept, fun settings => ?_⟩, ends⟩
  show (next (page.under settings)).run (page.under settings) = _
  rw [same page tidy]
  exact moves.under settings

theorem read {next : Page → Print α} (same : ∀ page, page.Tidy → ∀ settings,
      next (page.under settings) = next page)
    (each : ∀ page, Steady pre (next page) post) : Steady pre (MonadState.get >>= next) post := by
  refine get same fun page => (each page).weaken ?_ fun _ _ => id
  rintro _ ⟨rfl, holds⟩
  exact holds

theorem settled {post : Page → Prop} (steady : Steady pre action fun _ => post) :
    Steady (fun page => pre page ∧ page.Settled) action fun _ page => post page ∧ page.Settled := by
  intro page tidy holds
  obtain ⟨moves, ends⟩ := steady page tidy holds.1
  exact ⟨moves, ends, moves.kept.settled holds.2⟩

end Steady

theorem quiet_modify {change : Page → Page} (moves : ∀ page, page.Tidy → Moves change page) :
    Quiet (modify change) :=
  .modify fun page tidy _ => ⟨moves page tidy, trivial⟩

theorem inner_modify {change : Page → Page} (moves : ∀ page, page.Tidy → page.Begun → Moves change page) :
    Inner (modify change) :=
  .modify fun page tidy begun => ⟨moves page tidy begun, (moves page tidy begun).kept.begun begun⟩

theorem quiet_fields {change : Page → Page} (settings : ∀ page, (change page).settings = page.settings)
    (buffer : ∀ page, (change page).buffer = page.buffer)
    (ended : ∀ page, (change page).lineEnded = true → page.lineEnded = true)
    (under : ∀ page settings, change (page.under settings) = (change page).under settings) :
    Quiet (modify change) :=
  quiet_modify fun page tidy =>
    .fields tidy (settings page) (buffer page) (fun isEnded => .inl (ended page isEnded)) (under page)

theorem quiet_exempt : Quiet (modify exempt) :=
  quiet_fields (fun _ => rfl) (fun _ => rfl) (fun _ => id) fun _ _ => rfl

theorem quiet_openFrame : Quiet (modify openFrame) :=
  quiet_fields (fun _ => rfl) (fun _ => rfl) (fun _ => id) fun _ _ => rfl

theorem quiet_closeFrame : Quiet (modify closeFrame) := by
  have shape : ∀ page : Page, (page.closeFrame.settings = page.settings) ∧
      (page.closeFrame.buffer = page.buffer) ∧ (page.closeFrame.lineEnded = page.lineEnded) ∧
      ∀ settings, (page.under settings).closeFrame = page.closeFrame.under settings := by
    rintro ⟨settings, buffer, indentation, lineEnded, blockRequests, groupRequests, frames, _, _, _, _⟩
    cases frames with
    | nil => exact ⟨rfl, rfl, rfl, fun _ => rfl⟩
    | cons frame frames => exact ⟨rfl, rfl, rfl, fun _ => rfl⟩
  exact quiet_fields (fun page => (shape page).1) (fun page => (shape page).2.1)
    (fun page isEnded => (shape page).2.2.1 ▸ isEnded) fun page => (shape page).2.2.2

theorem quiet_requestBlock (request : BlockRequest) : Quiet (modify fun page => page.requestBlock request) :=
  quiet_fields (fun _ => rfl) (fun _ => rfl) (fun _ => id) fun _ _ => rfl

theorem quiet_setIndentation (move : Move) : Quiet (modify fun page => page.setIndentation move) :=
  quiet_fields (fun _ => rfl) (fun _ => rfl) (fun _ => id) fun _ _ => rfl

theorem quiet_setLineEnded : Quiet (modify fun page => page.setLineEnded false) :=
  quiet_fields (fun _ => rfl) (fun _ => rfl) (fun _ isEnded => (by cases isEnded)) fun _ _ => rfl

theorem opens_write {content : String} (shown : Fragment.ofText content = .text content)
    (spaceAfter : Bool) : Opens (write content spaceAfter) :=
  .modify fun _ tidy _ => ⟨moves_write tidy shown spaceAfter, begun_write content spaceAfter⟩

theorem opens_writeToken {token : Token} (shown : token.Shown) (spaceAfter : Bool) :
    Opens (writeToken token spaceAfter) :=
  .modify fun _ tidy _ => ⟨moves_write tidy shown spaceAfter, begun_write token.lexeme spaceAfter⟩

theorem quiet_dropSpace : Quiet dropSpace :=
  quiet_modify fun _ tidy => moves_dropSpace tidy

theorem quiet_dropBlanks : Quiet dropBlanks :=
  quiet_modify fun _ tidy => moves_dropBlanks tidy

theorem inner_ensureSpace : Inner ensureSpace :=
  inner_modify fun _ tidy begun => moves_ensureSpace tidy begun

theorem quiet_newline (move : Move) : Quiet (newline move) :=
  quiet_modify fun _ tidy => moves_newline tidy move

theorem inner_stepBack : Inner stepBack :=
  inner_modify fun _ tidy begun => moves_stepBack tidy begun

theorem quiet_openChain : Quiet openChain :=
  .modifyGet fun _ tidy _ => ⟨⟨⟨⟨tidy.tabs, tidy.neat, tidy.ended⟩, id, id⟩, fun _ => rfl⟩, trivial⟩

theorem quiet_closeChain (outermost : Bool) : Quiet (closeChain outermost) := by
  unfold closeChain
  exact .ite (quiet_fields (fun _ => rfl) (fun _ => rfl) (fun _ => id) fun _ _ => rfl) (.pure fun _ => id)

section

variable {drawn : Token → Prop} (shown : ∀ token, drawn token → token.kind ≠ .newline → token.Shown)

include shown

theorem steady_trivia {slot : Trivia} (formed : SlotFormed drawn slot) (how : Instruction) :
    Steady Begun (trivia slot how) fun moved page => page.Begun ∧ (moved = true → page.Broken) := by
  intro page tidy begun
  obtain ⟨moves, broken⟩ := movesTo_trivia shown formed how tidy begun
  exact ⟨moves, moves.kept.begun begun, broken⟩

theorem inner_trivia {slot : Trivia} (formed : SlotFormed drawn slot) (how : Instruction) :
    Inner (trivia slot how) :=
  (steady_trivia shown formed how).weaken (fun _ => id) fun _ _ ends => ends.1

theorem inner_slot {slot : Trivia} (formed : SlotFormed drawn slot) (how : Instruction) :
    Inner (Print.slot slot how) := by
  refine inner_modify fun page tidy begun => ?_
  obtain ⟨moves, _⟩ := movesTo_trivia shown formed how tidy begun
  exact ⟨moves.kept, fun settings => by rw [moves.under]⟩

theorem inner_closeExpression {trailing : Trivia} (formed : SlotFormed drawn trailing) :
    Inner (closeExpression trailing) :=
  (inner_slot shown formed _).bind fun _ => quiet_setLineEnded.inner

omit shown in
theorem quiet_closeExpression_nil : Quiet (closeExpression []) := by
  have nothing : Quiet (Print.slot [] .afterExpression) := quiet_modify fun _ tidy => .refl tidy
  exact nothing.bind fun _ => quiet_setLineEnded

theorem inner_closeEntry (endDelimited breakBetween breakAtEnd isLast : Bool) {trailing : Trivia}
    (formed : SlotFormed drawn trailing) :
    Inner (closeEntry endDelimited breakBetween breakAtEnd isLast trailing) := by
  unfold closeEntry
  refine quiet_dropSpace.inner.bind fun _ => .optional (opens_write rfl true).inner ?_
  refine .ite ?_ ?_
  · exact .ite (quiet_newline .stay).inner (.pure fun _ => id)
  · refine (inner_trivia shown formed _).bind fun moved => ?_
    exact .ite (quiet_newline .stay).inner (.pure fun _ => id)

omit shown in
theorem inner_closeCall (moved : Bool) (arguments : List (Item Expr)) :
    Inner (closeCall moved arguments) := by
  unfold closeCall
  refine quiet_dropBlanks.inner.bind fun _ => .optional (quiet_newline .left).inner ?_
  exact .ite (quiet_requestBlock _).inner (opens_write rfl true).inner

theorem inner_closeGrouping (moved : Bool) {afterClose : Trivia} (formed : SlotFormed drawn afterClose) :
    Inner (closeGrouping moved afterClose) := by
  unfold closeGrouping
  refine quiet_dropSpace.inner.bind fun _ => .optional inner_stepBack ?_
  refine (opens_write rfl true).inner.bind fun _ => ?_
  have taken : Quiet (modifyGet takeGroupRequest) := by
    refine .modifyGet fun page tidy _ => ⟨?_, trivial⟩
    obtain ⟨settings, buffer, indentation, lineEnded, blockRequests, groupRequests, _, _, _, _, _⟩ := page
    cases groupRequests with
    | nil => exact ⟨tidy.kept, fun _ => rfl⟩
    | cons request requests => exact ⟨⟨⟨tidy.tabs, tidy.neat, tidy.ended⟩, id, id⟩, fun _ => rfl⟩
  exact taken.inner.bind fun request => inner_slot shown formed _

theorem opens_word {token : Token} (formed : WordFormed drawn token) (spaceAfter : Bool) :
    Opens (writeToken token spaceAfter) :=
  opens_writeToken (shown token formed.1 formed.2) spaceAfter

theorem opens_leaf {token : Token} {behind : Trivia} (formed : WordFormed drawn token)
    (behindFormed : SlotFormed drawn behind) (how : Instruction) :
    Opens (do writeToken token true; Print.slot behind how; closeExpression []) :=
  (opens_word shown formed true).bind fun _ => (inner_slot shown behindFormed how).bind fun _ =>
    quiet_closeExpression_nil.inner

omit shown in
theorem quiet_lineBreak : Quiet (Print.expr .newline) := by
  rw [Print.expr]
  refine quiet_exempt.bind fun _ => .read (fun _ _ _ => rfl) fun page => ?_
  exact .optional (quiet_newline .stay) quiet_closeExpression_nil

omit shown in
theorem written {action : Print Unit} (opens : Opens action) {kind : Prop} :
    Steady (fun _ => True) action fun _ page => kind → page.Begun :=
  opens.weaken (fun _ => id) fun _ _ begun _ => begun

end

variable {drawn : Token → Prop}

mutual

theorem steady_expr (shown : ∀ token, drawn token → token.kind ≠ .newline → token.Shown) :
    ∀ {expr : Expr}, expr.Formed drawn →
    Steady (fun _ => True) (Print.expr expr) fun _ page => expr ≠ .newline → page.Begun
  | .call callee afterOpen ⟨arguments, endDelimited⟩ trailing, formed => by
    obtain ⟨calleeFormed, openFormed, argumentsFormed, trailingFormed⟩ := formed
    rw [Print.expr]
    refine written (.optional quiet_exempt ?_)
    refine (steady_expr shown calleeFormed).quiet.bind fun _ => quiet_dropSpace.bind fun _ => ?_
    refine (opens_write rfl false).bind fun _ => (inner_trivia shown openFormed _).bind fun moved => ?_
    refine (inner_entries shown argumentsFormed).bind fun _ => ?_
    exact (inner_closeCall moved arguments).bind fun _ => inner_closeExpression shown trailingFormed
  | .function afterKeyword signature afterSignature isConstructor trailing, formed => by
    obtain ⟨keywordFormed, signatureFormed, afterFormed, trailingFormed⟩ := formed
    rw [Print.expr]
    refine written ((opens_write rfl true).bind fun _ => (inner_slot shown keywordFormed _).bind fun _ => ?_)
    refine (steady_expr shown signatureFormed).inner.bind fun _ => .optional quiet_dropBlanks.inner ?_
    refine (inner_slot shown afterFormed _).bind fun _ => .optional (opens_write rfl true).inner ?_
    exact quiet_exempt.inner.bind fun _ => inner_closeExpression shown trailingFormed
  | .lifetime operator afterOperator operand trailing, formed => by
    obtain ⟨operatorFormed, afterFormed, operandFormed, trailingFormed⟩ := formed
    rw [Print.expr]
    refine written ((opens_word shown operatorFormed true).bind fun _ => ?_)
    refine (inner_slot shown afterFormed _).bind fun _ => ?_
    refine (steady_expr shown operandFormed).inner.bind fun _ => ?_
    exact quiet_dropBlanks.inner.bind fun _ => inner_closeExpression shown trailingFormed
  | .binary left operator afterOperator right, formed => by
    obtain ⟨leftFormed, shownLeft, operatorFormed, afterFormed, rightFormed⟩ := formed
    rw [Print.expr]
    have opensLeft : Opens (Print.expr left) :=
      (steady_expr shown leftFormed).weaken (fun _ => id) fun _ _ begun => begun shownLeft
    refine written (opensLeft.bind fun _ => inner_ensureSpace.bind fun _ => ?_)
    refine (opens_word shown operatorFormed true).inner.bind fun _ => ?_
    refine quiet_openFrame.inner.bind fun _ => ?_
    refine (inner_slot shown afterFormed _).bind fun _ => ?_
    refine (steady_expr shown rightFormed).inner.bind fun _ => ?_
    exact quiet_closeFrame.inner.bind fun _ => quiet_closeExpression_nil.inner
  | .grouping afterOpen inner afterClose, formed => by
    obtain ⟨openFormed, innerFormed, closeFormed⟩ := formed
    rw [Print.expr]
    refine written ((opens_write rfl false).bind fun _ => ?_)
    refine (inner_trivia shown openFormed _).bind fun moved => ?_
    refine (inner_exprs shown innerFormed).bind fun _ => ?_
    exact (inner_closeGrouping shown moved closeFormed).bind fun _ => quiet_closeExpression_nil.inner
  | .array afterOpen ⟨elements, endDelimited⟩, formed => by
    obtain ⟨openFormed, elementsFormed⟩ := formed
    rw [Print.expr]
    refine written ((opens_write rfl false).bind fun _ => ?_)
    refine (inner_trivia shown openFormed _).bind fun moved => ?_
    refine (inner_entries shown elementsFormed).bind fun _ => ?_
    refine .optional (quiet_newline .left).inner ?_
    exact (opens_write rfl false).inner.bind fun _ => quiet_closeExpression_nil.inner
  | .literal token after, formed => by
    rw [Print.expr]
    exact written (opens_leaf shown formed.1 formed.2 _)
  | .identifier token after, formed => by
    rw [Print.expr]
    exact written (opens_leaf shown formed.1 formed.2 _)
  | .numberStartDot token after, formed => by
    rw [Print.expr]
    exact written ((opens_write rfl false).bind fun _ => (opens_leaf shown formed.1 formed.2 _).inner)
  | .numberEndDot token after, formed => by
    rw [Print.expr]
    refine written ((opens_word shown formed.1 false).bind fun _ => (opens_write rfl true).inner.bind fun _ => ?_)
    exact (inner_slot shown formed.2 _).bind fun _ => quiet_closeExpression_nil.inner
  | .unary operator afterOperator operand, formed => by
    obtain ⟨operatorFormed, afterFormed, operandFormed⟩ := formed
    rw [Print.expr]
    refine written ((opens_word shown operatorFormed _).bind fun _ => ?_)
    refine (inner_slot shown afterFormed _).bind fun _ => ?_
    refine (steady_expr shown operandFormed).inner.bind fun _ => ?_
    exact quiet_closeExpression_nil.inner
  | .step operand operator afterOperator, formed => by
    obtain ⟨operandFormed, operatorFormed, afterFormed⟩ := formed
    rw [Print.expr]
    refine written ((steady_expr shown operandFormed).quiet.bind fun _ => quiet_dropSpace.bind fun _ => ?_)
    exact opens_leaf shown operatorFormed afterFormed _
  | .assign target operator afterOperator value, formed => by
    obtain ⟨targetFormed, operatorFormed, afterFormed, valueFormed⟩ := formed
    rw [Print.expr]
    refine written ((steady_expr shown targetFormed).quiet.bind fun _ => ?_)
    refine (opens_word shown operatorFormed true).bind fun _ => ?_
    refine (inner_slot shown afterFormed _).bind fun _ => ?_
    exact (steady_expr shown valueFormed).inner.bind fun _ => quiet_closeExpression_nil.inner
  | .dotted owner afterDot member trailing, formed => by
    obtain ⟨ownerFormed, dotFormed, memberFormed, trailingFormed⟩ := formed
    rw [Print.expr]
    refine written ((steady_expr shown ownerFormed).quiet.bind fun _ => quiet_dropSpace.bind fun _ => ?_)
    refine (opens_write rfl false).bind fun _ => quiet_openFrame.inner.bind fun _ => ?_
    refine quiet_openChain.inner.bind fun outermost => (inner_slot shown dotFormed _).bind fun _ => ?_
    refine (steady_expr shown memberFormed).inner.bind fun _ => quiet_closeFrame.inner.bind fun _ => ?_
    exact (quiet_closeChain outermost).inner.bind fun _ => inner_closeExpression shown trailingFormed
  | .access collection accessor indices trailing, formed => by
    obtain ⟨collectionFormed, accessorFormed, indicesFormed, trailingFormed⟩ := formed
    rw [Print.expr]
    refine written ((steady_expr shown collectionFormed).quiet.bind fun _ => quiet_dropSpace.bind fun _ => ?_)
    refine (opens_word shown accessorFormed _).bind fun _ => ?_
    refine (inner_indexList shown indicesFormed).bind fun _ => ?_
    refine quiet_dropSpace.inner.bind fun _ => (opens_write rfl true).inner.bind fun _ => ?_
    exact inner_closeExpression shown trailingFormed
  | .ternary condition afterHook whenTrue afterColon whenFalse, formed => by
    obtain ⟨conditionFormed, hookFormed, trueFormed, colonFormed, falseFormed⟩ := formed
    rw [Print.expr]
    refine written ((steady_expr shown conditionFormed).quiet.bind fun _ => (opens_write rfl true).bind fun _ => ?_)
    refine quiet_openFrame.inner.bind fun _ => (inner_slot shown hookFormed _).bind fun _ => ?_
    refine (steady_expr shown trueFormed).inner.bind fun _ => ?_
    refine (opens_write rfl true).inner.bind fun _ => ?_
    refine (inner_trivia shown colonFormed _).bind fun moved => ?_
    refine (steady_expr shown falseFormed).inner.bind fun _ => quiet_closeFrame.inner.bind fun _ => ?_
    exact .optional (quiet_setIndentation .left).inner quiet_closeExpression_nil.inner
  | .newline, _ => quiet_lineBreak.weaken (fun _ => id) fun _ _ _ other => absurd rfl other
  | .lineComment token, formed => by
    rw [Print.expr]
    refine written (quiet_exempt.bind fun _ => (opens_word shown formed false).bind fun _ => ?_)
    exact quiet_closeExpression_nil.inner
  | .blockComment token, formed => by
    rw [Print.expr]
    refine written (quiet_exempt.bind fun _ => (opens_word shown formed false).bind fun _ => ?_)
    exact quiet_closeExpression_nil.inner
  | .unidentified token trailing, formed => by
    rw [Print.expr]
    refine written ((opens_word shown formed.1 true).bind fun _ => .optional quiet_exempt.inner ?_)
    exact inner_closeExpression shown formed.2

theorem inner_exprs (shown : ∀ token, drawn token → token.kind ≠ .newline → token.Shown) :
    ∀ {exprs : List Expr}, Expr.ListFormed drawn exprs → Inner (Print.exprs exprs)
  | [], _ => .pure fun _ => id
  | first :: others, formed => by
    rw [Print.exprs]
    exact (steady_expr shown formed.1).inner.bind fun _ => inner_exprs shown formed.2

theorem inner_entries (shown : ∀ token, drawn token → token.kind ≠ .newline → token.Shown)
    {endDelimited breakBetween breakAtEnd : Bool} :
    ∀ {items : List (Item Expr)}, Expr.ItemsFormed drawn items →
      Inner (entries endDelimited breakBetween breakAtEnd items)
  | [], _ => .pure fun _ => id
  | ⟨value, trailing⟩ :: others, formed => by
    rw [entries]
    refine (steady_expr shown formed.1).inner.bind fun _ => ?_
    exact (inner_closeEntry shown _ _ _ _ formed.2.1).bind fun _ => inner_entries shown formed.2.2

theorem inner_indexList (shown : ∀ token, drawn token → token.kind ≠ .newline → token.Shown) :
    ∀ {indices : List (Trivia × Expr)}, Expr.IndicesFormed drawn indices → Inner (indexList indices)
  | [], _ => .pure fun _ => id
  | (before, index) :: others, formed => by
    rw [indexList]
    refine quiet_openFrame.inner.bind fun _ => (inner_slot shown formed.1 _).bind fun _ => ?_
    refine (steady_expr shown formed.2.1).inner.bind fun _ => quiet_closeFrame.inner.bind fun _ => ?_
    refine quiet_dropSpace.inner.bind fun _ => .optional (opens_write rfl true).inner ?_
    exact inner_indexList shown formed.2.2

end

end GmlLayout.Print
