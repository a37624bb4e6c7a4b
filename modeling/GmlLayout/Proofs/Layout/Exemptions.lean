import GmlLayout.Proofs.Layout.Ink

/-!
Exemptions from a semicolon. A signature whose body follows as a block, a line break that stands for an
expression and a remark behind an expression each claim one for the statement they are in. Nothing inside
an expression uses one up, so the exemptions in front of an expression and those it claims add up, and a
statement with such an expression ends without a semicolon of its own.
-/

namespace GmlLayout

def hasRemark (slot : Trivia) : Bool :=
  slot.any (!·.isNewline)

namespace Expr

mutual

def claims : Expr → Bool
  | .call callee afterOpen ⟨arguments, endDelimited⟩ trailing =>
    (Expr.call callee afterOpen ⟨arguments, endDelimited⟩ trailing).isLambdaCall || callee.claims
      || entriesClaim arguments || hasRemark trailing
  | .function _ _ _ _ _ => true
  | .lifetime _ _ operand trailing => operand.claims || hasRemark trailing
  | .binary left _ _ right => left.claims || right.claims
  | .grouping _ inner _ => listClaims inner
  | .array _ ⟨elements, _⟩ => entriesClaim elements
  | .unary _ _ operand => operand.claims
  | .step operand _ _ => operand.claims
  | .assign target _ _ value => target.claims || value.claims
  | .dotted owner _ member trailing => owner.claims || member.claims || hasRemark trailing
  | .access collection _ indices trailing => collection.claims || indicesClaim indices || hasRemark trailing
  | .ternary condition _ whenTrue _ whenFalse => condition.claims || whenTrue.claims || whenFalse.claims
  | .newline => true
  | .lineComment _ => true
  | .blockComment _ => true
  | .unidentified token trailing => token.kind = .keyword .constructorWord || hasRemark trailing
  | .literal _ _ => false
  | .identifier _ _ => false
  | .numberStartDot _ _ => false
  | .numberEndDot _ _ => false

def listClaims : List Expr → Bool
  | [] => false
  | first :: others => first.claims || listClaims others

def entriesClaim : List (Item Expr) → Bool
  | [] => false
  | ⟨value, _⟩ :: others => value.claims || entriesClaim others

def indicesClaim : List (Trivia × Expr) → Bool
  | [] => false
  | (_, index) :: others => index.claims || indicesClaim others

end

end Expr

def variablesClaim (items : List (Item Variable)) : Bool :=
  items.any (·.value.target.claims)

def remarks (slot : Trivia) : Nat :=
  slot.countP (!·.isNewline)

theorem remarks_cons (token : Token) (rest : Trivia) :
    remarks (token :: rest) = (if token.isNewline then 0 else 1) + remarks rest := by
  unfold remarks
  rw [List.countP_cons, Nat.add_comm]
  cases token.isNewline <;> rfl

@[simp] theorem remarks_pos {slot : Trivia} : 0 < remarks slot ↔ hasRemark slot = true := by
  unfold remarks hasRemark
  rw [List.countP_pos_iff, List.any_eq_true]

theorem pos_toNat {test : Bool} : 0 < test.toNat ↔ test = true := by
  cases test <;> decide

namespace Expr

mutual

def grants : Expr → Nat
  | .call callee afterOpen ⟨arguments, endDelimited⟩ trailing =>
    (Expr.call callee afterOpen ⟨arguments, endDelimited⟩ trailing).isLambdaCall.toNat
      + (callee.grants + (entriesGrants arguments + remarks trailing))
  | .function _ signature _ _ trailing => signature.grants + (1 + remarks trailing)
  | .lifetime _ _ operand trailing => operand.grants + remarks trailing
  | .binary left _ _ right => left.grants + right.grants
  | .grouping _ inner _ => listGrants inner
  | .array _ ⟨elements, _⟩ => entriesGrants elements
  | .unary _ _ operand => operand.grants
  | .step operand _ _ => operand.grants
  | .assign target _ _ value => target.grants + value.grants
  | .dotted owner _ member trailing => owner.grants + (member.grants + remarks trailing)
  | .access collection _ indices trailing =>
    collection.grants + (indicesGrants indices + remarks trailing)
  | .ternary condition _ whenTrue _ whenFalse =>
    condition.grants + (whenTrue.grants + whenFalse.grants)
  | .newline => 1
  | .lineComment _ => 1
  | .blockComment _ => 1
  | .unidentified token trailing =>
    (decide (token.kind = .keyword .constructorWord)).toNat + remarks trailing
  | .literal _ _ => 0
  | .identifier _ _ => 0
  | .numberStartDot _ _ => 0
  | .numberEndDot _ _ => 0

def listGrants : List Expr → Nat
  | [] => 0
  | first :: others => first.grants + listGrants others

def entriesGrants : List (Item Expr) → Nat
  | [] => 0
  | ⟨value, _⟩ :: others => value.grants + entriesGrants others

def indicesGrants : List (Trivia × Expr) → Nat
  | [] => 0
  | (_, index) :: others => index.grants + indicesGrants others

end

mutual

theorem claims_iff_grants : ∀ expr : Expr, expr.claims = true ↔ 0 < expr.grants
  | .call callee afterOpen ⟨arguments, endDelimited⟩ trailing => by
    simp only [claims, grants, Bool.or_eq_true, Nat.add_pos_iff_pos_or_pos, pos_toNat, remarks_pos,
      callee.claims_iff_grants, entriesClaim_iff_grants arguments, or_assoc]
  | .function _ signature _ _ _ => by
    simp only [claims, grants, true_iff]
    omega
  | .lifetime _ _ operand _ => by
    simp only [claims, grants, Bool.or_eq_true, Nat.add_pos_iff_pos_or_pos, remarks_pos,
      operand.claims_iff_grants]
  | .binary left _ _ right => by
    simp only [claims, grants, Bool.or_eq_true, Nat.add_pos_iff_pos_or_pos, left.claims_iff_grants,
      right.claims_iff_grants]
  | .grouping _ inner _ => by simp only [claims, grants, listClaims_iff_grants inner]
  | .array _ ⟨elements, _⟩ => by simp only [claims, grants, entriesClaim_iff_grants elements]
  | .unary _ _ operand => by simp only [claims, grants, operand.claims_iff_grants]
  | .step operand _ _ => by simp only [claims, grants, operand.claims_iff_grants]
  | .assign target _ _ value => by
    simp only [claims, grants, Bool.or_eq_true, Nat.add_pos_iff_pos_or_pos, target.claims_iff_grants,
      value.claims_iff_grants]
  | .dotted owner _ member _ => by
    simp only [claims, grants, Bool.or_eq_true, Nat.add_pos_iff_pos_or_pos, remarks_pos,
      owner.claims_iff_grants, member.claims_iff_grants, or_assoc]
  | .access collection _ indices _ => by
    simp only [claims, grants, Bool.or_eq_true, Nat.add_pos_iff_pos_or_pos, remarks_pos,
      collection.claims_iff_grants, indicesClaim_iff_grants indices, or_assoc]
  | .ternary condition _ whenTrue _ whenFalse => by
    simp only [claims, grants, Bool.or_eq_true, Nat.add_pos_iff_pos_or_pos, condition.claims_iff_grants,
      whenTrue.claims_iff_grants, whenFalse.claims_iff_grants, or_assoc]
  | .newline => by simp only [claims, grants, Nat.zero_lt_one]
  | .lineComment _ => by simp only [claims, grants, Nat.zero_lt_one]
  | .blockComment _ => by simp only [claims, grants, Nat.zero_lt_one]
  | .unidentified _ _ => by
    simp only [claims, grants, Bool.or_eq_true, Nat.add_pos_iff_pos_or_pos, pos_toNat, remarks_pos]
  | .literal _ _ => by simp [claims, grants]
  | .identifier _ _ => by simp [claims, grants]
  | .numberStartDot _ _ => by simp [claims, grants]
  | .numberEndDot _ _ => by simp [claims, grants]

theorem listClaims_iff_grants : ∀ exprs : List Expr, listClaims exprs = true ↔ 0 < listGrants exprs
  | [] => by simp [listClaims, listGrants]
  | first :: others => by
    simp only [listClaims, listGrants, Bool.or_eq_true, Nat.add_pos_iff_pos_or_pos,
      first.claims_iff_grants, listClaims_iff_grants others]

theorem entriesClaim_iff_grants : ∀ items : List (Item Expr),
    entriesClaim items = true ↔ 0 < entriesGrants items
  | [] => by simp [entriesClaim, entriesGrants]
  | ⟨value, _⟩ :: others => by
    simp only [entriesClaim, entriesGrants, Bool.or_eq_true, Nat.add_pos_iff_pos_or_pos,
      value.claims_iff_grants, entriesClaim_iff_grants others]

theorem indicesClaim_iff_grants : ∀ indices : List (Trivia × Expr),
    indicesClaim indices = true ↔ 0 < indicesGrants indices
  | [] => by simp [indicesClaim, indicesGrants]
  | (_, index) :: others => by
    simp only [indicesClaim, indicesGrants, Bool.or_eq_true, Nat.add_pos_iff_pos_or_pos,
      index.claims_iff_grants, indicesClaim_iff_grants others]

end

end Expr

def variablesGrants : List (Item Variable) → Nat
  | [] => 0
  | item :: others => item.value.target.grants + variablesGrants others

theorem variablesClaim_iff_grants (items : List (Item Variable)) :
    variablesClaim items = true ↔ 0 < variablesGrants items := by
  unfold variablesClaim
  induction items with
  | nil => simp [variablesGrants]
  | cons item others ih =>
    rw [List.any_cons, Bool.or_eq_true, variablesGrants, Nat.add_pos_iff_pos_or_pos,
      item.value.target.claims_iff_grants, ih]

namespace Page

variable (page : Page)

@[simp] theorem exemptions_write (content : String) (spaceAfter : Bool) :
    (page.write content spaceAfter).exemptions = page.exemptions := by
  cases spaceAfter <;> rfl

@[simp] theorem exemptions_ensureSpace : page.ensureSpace.exemptions = page.exemptions := by
  unfold ensureSpace
  split <;> rfl

@[simp] theorem exemptions_newline (move : Move) : (page.newline move).exemptions = page.exemptions := by
  unfold newline
  split <;> rfl

@[simp] theorem exemptions_firstBreak (how : Instruction) (hint : Int) :
    (page.firstBreak how hint).exemptions = page.exemptions := by
  unfold firstBreak
  split
  · simp only
    split <;> rfl
  · exact page.exemptions_newline how.move

@[simp] theorem exemptions_closeFrame : page.closeFrame.exemptions = page.exemptions := by
  unfold closeFrame
  split <;> rfl

@[simp] theorem exemptions_takeGroupRequest :
    page.takeGroupRequest.2.exemptions = page.exemptions := by
  unfold takeGroupRequest
  split <;> rfl

@[simp] theorem exemptions_placeSemicolon : page.placeSemicolon.exemptions = page.exemptions := by
  unfold placeSemicolon
  split
  · exact page.dropSpace.exemptions_write ";" true
  · rfl

theorem exemptions_exemptIf (trailing : Bool) :
    (page.exemptIf trailing).exemptions = page.exemptions + trailing.toNat := by
  cases trailing <;> rfl

theorem exemptions_writeRemark (how : Instruction) (token : Token) :
    (page.writeRemark how token).exemptions = page.exemptions + how.trailing.toNat := by
  rw [writeRemark, writeToken, exemptions_write, exemptions_ensureSpace, exemptions_exemptIf]

theorem exemptions_writeOddity (how : Instruction) (token : Token) :
    (page.writeOddity how token).exemptions = page.exemptions + how.trailing.toNat := by
  rw [writeOddity, writeToken, exemptions_write, exemptions_exemptIf]

/-- A slot behind an expression claims an exemption for each remark; no slot takes one back. -/
theorem exemptions_triviaFrom (how : Instruction) (opening : Opening) (moved : Bool) (slot : Trivia) :
    (triviaFrom how opening moved slot page).2.exemptions =
      page.exemptions + how.trailing.toNat * remarks slot := by
  induction slot generalizing opening moved page with
  | nil => rfl
  | cons token rest ih =>
    unfold triviaFrom
    rw [remarks_cons]
    by_cases broken : token.isNewline = true
    · rw [if_pos broken, if_pos broken, Nat.zero_add]
      cases opening with
      | collapsing => exact ih page .collapsing moved
      | pending =>
        simp only
        split
        · exact ih page .collapsing moved
        · split
          · rw [ih, exemptions_newline]
          · rw [ih, exemptions_firstBreak]
      | _ =>
        simp only
        split
        · rw [ih, exemptions_newline]
        · rw [ih, exemptions_firstBreak]
    · rw [if_neg broken, if_neg broken, Nat.mul_add, Nat.mul_one, ← Nat.add_assoc]
      split
      · rw [ih, exemptions_writeRemark]
      · rw [ih, exemptions_writeOddity]

theorem exemptions_trivia {how : Instruction} (respect : how.trailing = true → how.respect = true)
    (slot : Trivia) :
    (page.trivia slot how).2.exemptions = page.exemptions + how.trailing.toNat * remarks slot := by
  unfold trivia
  split
  · rename_i passed
    cases behind : how.trailing with
    | false => rw [Bool.toNat_false, Nat.zero_mul, Nat.add_zero]
    | true =>
      rw [respect behind, Bool.not_true, Bool.false_and, Bool.or_false, List.isEmpty_iff] at passed
      rw [passed]
      rfl
  · exact page.exemptions_triviaFrom how _ _ slot

end Page

namespace Print

open Page

def Grants {α : Type} (count : Nat) (action : Print α) : Prop :=
  ∀ page, (after action page).exemptions = page.exemptions + count

namespace Grants

variable {α β : Type} {first second : Nat} {action : Print α}

theorem bind {next : α → Print β} (front : Grants first action)
    (back : ∀ value, Grants second (next value)) :
    Grants (first + second) (action >>= next) := by
  intro page
  calc (after (action >>= next) page).exemptions
      = (after action page).exemptions + second := back _ _
    _ = page.exemptions + first + second := by rw [front]
    _ = page.exemptions + (first + second) := Nat.add_assoc _ _ _

theorem after {next : α → Print β} (front : Grants 0 action)
    (back : ∀ value, Grants second (next value)) :
    Grants second (action >>= next) := by
  have whole := front.bind back
  rwa [Nat.zero_add] at whole

theorem before {next : α → Print β} (front : Grants first action)
    (back : ∀ value, Grants 0 (next value)) :
    Grants first (action >>= next) :=
  front.bind back

theorem pure {value : α} : Grants 0 (Pure.pure value) :=
  fun _ => rfl

theorem ite {test : Prop} [Decidable test] {other : Print α} (yes : test → Grants first action)
    (no : ¬test → Grants first other) : Grants first (if test then action else other) := by
  split
  · exact yes ‹_›
  · exact no ‹_›

theorem optional {test : Prop} [Decidable test] {step : Print Unit} {rest : Unit → Print α}
    (front : Grants 0 step) (back : Grants second (rest ())) :
    Grants second (if test then step >>= rest else rest ()) :=
  ite (fun _ => front.after fun _ => back) fun _ => back

theorem read {next : Page → Print α} (each : ∀ page, Grants first (next page)) :
    Grants first (MonadState.get >>= next) :=
  fun page => each page page

theorem exemptIf {claimed : Bool} {test : Prop} [Decidable test] (same : claimed = true ↔ test)
    {rest : Unit → Print α} (back : Grants second (rest ())) :
    Grants (claimed.toNat + second) (if test then modify exempt >>= rest else rest ()) := by
  have granted : Grants 1 (modify exempt) := fun _ => rfl
  by_cases holds : test
  · rw [if_pos holds, same.mpr holds]
    exact granted.bind fun _ => back
  · rw [if_neg holds, Bool.eq_false_iff.mpr (mt same.mp holds), Bool.toNat_false, Nat.zero_add]
    exact back

theorem pos {claimed : Bool} (granted : Grants first action) (claims : claimed = true ↔ 0 < first)
    (page : Page) (some : claimed = true ∨ 0 < page.exemptions) :
    0 < (Print.after action page).exemptions := by
  rw [claims] at some
  rw [granted]
  omega

end Grants

theorem grants_write (content : String) (spaceAfter : Bool) : Grants 0 (write content spaceAfter) :=
  fun page => page.exemptions_write content spaceAfter

theorem grants_writeToken (token : Token) (spaceAfter : Bool) : Grants 0 (writeToken token spaceAfter) :=
  fun page => page.exemptions_write token.lexeme spaceAfter

theorem grants_dropSpace : Grants 0 dropSpace :=
  fun _ => rfl

theorem grants_dropBlanks : Grants 0 dropBlanks :=
  fun _ => rfl

theorem grants_ensureSpace : Grants 0 ensureSpace :=
  fun page => page.exemptions_ensureSpace

theorem grants_newline (move : Move) : Grants 0 (newline move) :=
  fun page => page.exemptions_newline move

theorem grants_openFrame : Grants 0 (modify openFrame) :=
  fun _ => rfl

theorem grants_closeFrame : Grants 0 (modify closeFrame) :=
  fun page => page.exemptions_closeFrame

theorem grants_exempt : Grants 1 (modify exempt) :=
  fun _ => rfl

theorem grants_trivia (slot : Trivia) {how : Instruction} (inside : how.trailing = false) :
    Grants 0 (trivia slot how) := by
  intro page
  have laid := page.exemptions_trivia (fun behind => absurd (inside.symm.trans behind) Bool.false_ne_true) slot
  rwa [inside, Bool.toNat_false, Nat.zero_mul] at laid

theorem grants_slot (slot : Trivia) {how : Instruction} (inside : how.trailing = false) :
    Grants 0 (Print.slot slot how) :=
  grants_trivia slot inside

theorem grants_trailing (slot : Trivia) {how : Instruction} (behind : how.trailing = true)
    (respect : how.respect = true) : Grants (remarks slot) (trivia slot how) := by
  intro page
  have laid := page.exemptions_trivia (fun _ => respect) slot
  rwa [behind, Bool.toNat_true, Nat.one_mul] at laid

theorem grants_closeExpression (trailing : Trivia) :
    Grants (remarks trailing) (closeExpression trailing) := by
  have laid : Grants (remarks trailing) (Print.slot trailing .afterExpression) :=
    grants_trailing trailing rfl rfl
  exact laid.before fun _ _ => rfl

theorem grants_closeExpression_nil : Grants 0 (closeExpression []) :=
  grants_closeExpression []

theorem grants_stepBack : Grants 0 stepBack := by
  refine fun page => ?_
  show (if page.onBlankLine then page.dropLine.indent .left else page.newline .left).exemptions = _
  split
  · rfl
  · exact page.exemptions_newline .left

theorem grants_closeEntry (endDelimited breakBetween breakAtEnd isLast : Bool) (trailing : Trivia) :
    Grants 0 (closeEntry endDelimited breakBetween breakAtEnd isLast trailing) := by
  unfold closeEntry
  refine grants_dropSpace.after fun _ => .optional (grants_write _ true) ?_
  refine .ite (fun _ => ?_) fun _ => ?_
  · exact .ite (fun _ => grants_newline .stay) fun _ => .pure
  · refine (grants_trivia trailing rfl).after fun moved => ?_
    exact .ite (fun _ => grants_newline .stay) fun _ => .pure

theorem grants_closeCall (moved : Bool) (arguments : List (Item Expr)) :
    Grants 0 (closeCall moved arguments) := by
  unfold closeCall
  refine grants_dropBlanks.after fun _ => .optional (grants_newline .left) ?_
  exact .ite (fun _ _ => rfl) fun _ => grants_write _ true

theorem grants_closeGrouping (moved : Bool) (afterClose : Trivia) :
    Grants 0 (closeGrouping moved afterClose) := by
  have taken : Grants 0 (modifyGet takeGroupRequest) :=
    fun page => page.exemptions_takeGroupRequest
  unfold closeGrouping
  refine grants_dropSpace.after fun _ => .optional grants_stepBack ?_
  exact (grants_write _ true).after fun _ => taken.after fun request => grants_slot afterClose rfl

theorem grants_openChain : Grants 0 openChain :=
  fun _ => rfl

theorem grants_closeChain (outermost : Bool) : Grants 0 (closeChain outermost) :=
  .ite (fun _ _ => rfl) fun _ => .pure

theorem grants_leaf (token : Token) (behind : Trivia) {how : Instruction} (inside : how.trailing = false) :
    Grants 0 (do writeToken token true; Print.slot behind how; closeExpression []) :=
  (grants_writeToken token true).after fun _ => (grants_slot behind inside).after fun _ =>
    grants_closeExpression_nil

mutual

theorem grants_expr : ∀ expr : Expr, Grants expr.grants (Print.expr expr)
  | .call callee afterOpen ⟨arguments, endDelimited⟩ trailing => by
    rw [Print.expr, Expr.grants]
    refine .exemptIf Iff.rfl ?_
    refine (grants_expr callee).bind fun _ => grants_dropSpace.after fun _ => ?_
    refine (grants_write _ _).after fun _ => (grants_trivia afterOpen rfl).after fun moved => ?_
    refine (grants_entries endDelimited false false arguments).bind fun _ => ?_
    exact (grants_closeCall moved arguments).after fun _ => grants_closeExpression trailing
  | .function afterKeyword signature afterSignature isConstructor trailing => by
    rw [Print.expr, Expr.grants]
    refine (grants_write _ _).after fun _ => (grants_slot afterKeyword rfl).after fun _ => ?_
    refine (grants_expr signature).bind fun _ => .optional grants_dropBlanks ?_
    refine (grants_slot afterSignature rfl).after fun _ => .optional (grants_write _ true) ?_
    exact grants_exempt.bind fun _ => grants_closeExpression trailing
  | .lifetime operator afterOperator operand trailing => by
    rw [Print.expr, Expr.grants]
    refine (grants_writeToken operator true).after fun _ => (grants_slot afterOperator rfl).after fun _ => ?_
    exact (grants_expr operand).bind fun _ => grants_dropBlanks.after fun _ => grants_closeExpression trailing
  | .binary left operator afterOperator right => by
    rw [Print.expr, Expr.grants]
    refine (grants_expr left).bind fun _ => grants_ensureSpace.after fun _ => ?_
    refine (grants_writeToken operator true).after fun _ => grants_openFrame.after fun _ => ?_
    refine (grants_slot afterOperator rfl).after fun _ => (grants_expr right).before fun _ => ?_
    exact grants_closeFrame.after fun _ => grants_closeExpression_nil
  | .grouping afterOpen inner afterClose => by
    rw [Print.expr, Expr.grants]
    refine (grants_write _ _).after fun _ => (grants_trivia afterOpen rfl).after fun moved => ?_
    refine (grants_exprs inner).before fun _ => (grants_closeGrouping moved afterClose).after fun _ => ?_
    exact grants_closeExpression_nil
  | .array afterOpen ⟨elements, endDelimited⟩ => by
    rw [Print.expr, Expr.grants]
    refine (grants_write _ _).after fun _ => (grants_trivia afterOpen rfl).after fun moved => ?_
    refine (grants_entries endDelimited false false elements).before fun _ => ?_
    refine .optional (grants_newline .left) ?_
    exact (grants_write _ _).after fun _ => grants_closeExpression_nil
  | .literal token behind => grants_leaf token behind rfl
  | .identifier token behind => grants_leaf token behind rfl
  | .numberStartDot token behind => (grants_write _ _).after fun _ => grants_leaf token behind rfl
  | .numberEndDot token behind =>
    (grants_writeToken token false).after fun _ => (grants_write _ _).after fun _ =>
      (grants_slot behind rfl).after fun _ => grants_closeExpression_nil
  | .unary operator afterOperator operand => by
    rw [Print.expr, Expr.grants]
    refine (grants_writeToken operator _).after fun _ => (grants_slot afterOperator rfl).after fun _ => ?_
    exact (grants_expr operand).before fun _ => grants_closeExpression_nil
  | .step operand operator afterOperator => by
    rw [Print.expr, Expr.grants]
    refine (grants_expr operand).before fun _ => grants_dropSpace.after fun _ => ?_
    exact grants_leaf operator afterOperator rfl
  | .assign target operator afterOperator value => by
    rw [Print.expr, Expr.grants]
    refine (grants_expr target).bind fun _ => (grants_writeToken operator true).after fun _ => ?_
    refine (grants_slot afterOperator rfl).after fun _ => ?_
    exact (grants_expr value).before fun _ => grants_closeExpression_nil
  | .dotted owner afterDot member trailing => by
    rw [Print.expr, Expr.grants]
    refine (grants_expr owner).bind fun _ => grants_dropSpace.after fun _ => ?_
    refine (grants_write _ _).after fun _ => grants_openFrame.after fun _ => ?_
    refine grants_openChain.after fun outermost => (grants_slot afterDot rfl).after fun _ => ?_
    refine (grants_expr member).bind fun _ => grants_closeFrame.after fun _ => ?_
    exact (grants_closeChain outermost).after fun _ => grants_closeExpression trailing
  | .access collection accessor indices trailing => by
    rw [Print.expr, Expr.grants]
    refine (grants_expr collection).bind fun _ => grants_dropSpace.after fun _ => ?_
    refine (grants_writeToken accessor _).after fun _ => (grants_indexList indices).bind fun _ => ?_
    refine grants_dropSpace.after fun _ => (grants_write _ _).after fun _ => ?_
    exact grants_closeExpression trailing
  | .ternary condition afterHook whenTrue afterColon whenFalse => by
    rw [Print.expr, Expr.grants]
    refine (grants_expr condition).bind fun _ => (grants_write _ _).after fun _ => ?_
    refine grants_openFrame.after fun _ => (grants_slot afterHook rfl).after fun _ => ?_
    refine (grants_expr whenTrue).bind fun _ => (grants_write _ _).after fun _ => ?_
    refine (grants_trivia afterColon rfl).after fun moved => (grants_expr whenFalse).before fun _ => ?_
    refine grants_closeFrame.after fun _ => .optional (fun _ => rfl) ?_
    exact grants_closeExpression_nil
  | .newline => by
    rw [Print.expr, Expr.grants]
    refine grants_exempt.before fun _ => .read fun page => .optional (grants_newline .stay) ?_
    exact grants_closeExpression_nil
  | .lineComment token =>
    grants_exempt.before fun _ => (grants_writeToken token false).after fun _ => grants_closeExpression_nil
  | .blockComment token =>
    grants_exempt.before fun _ => (grants_writeToken token false).after fun _ => grants_closeExpression_nil
  | .unidentified token trailing => by
    rw [Print.expr, Expr.grants]
    refine (grants_writeToken token true).after fun _ => ?_
    exact .exemptIf decide_eq_true_iff (grants_closeExpression trailing)

theorem grants_exprs : ∀ exprs : List Expr, Grants (Expr.listGrants exprs) (Print.exprs exprs)
  | [] => .pure
  | first :: others => (grants_expr first).bind fun _ => grants_exprs others

theorem grants_entries (endDelimited breakBetween breakAtEnd : Bool) : ∀ items : List (Item Expr),
    Grants (Expr.entriesGrants items) (entries endDelimited breakBetween breakAtEnd items)
  | [] => .pure
  | ⟨value, trailing⟩ :: others =>
    (grants_expr value).bind fun _ => (grants_closeEntry _ _ _ _ trailing).after fun _ =>
      grants_entries endDelimited breakBetween breakAtEnd others

theorem grants_indexList : ∀ indices : List (Trivia × Expr),
    Grants (Expr.indicesGrants indices) (indexList indices)
  | [] => .pure
  | (before, index) :: others => by
    rw [indexList, Expr.indicesGrants]
    refine grants_openFrame.after fun _ => (grants_slot before rfl).after fun _ => ?_
    refine (grants_expr index).bind fun _ => grants_closeFrame.after fun _ => grants_dropSpace.after fun _ => ?_
    exact .optional (grants_write _ true) (grants_indexList others)

end

theorem grants_betweenBranches (between : Trivia) (indented : Bool) :
    Grants (remarks between) (betweenBranches between indented) := by
  unfold betweenBranches
  exact (grants_trailing between rfl rfl).before fun moved =>
    .ite (fun _ => grants_newline _) fun _ => .pure

theorem grants_placeSemicolon : Grants 0 (modify Page.placeSemicolon) :=
  fun page => page.exemptions_placeSemicolon

theorem grants_semicolonIf (written : Bool) : Grants 0 (semicolonIf written) :=
  .ite (fun _ page => page.dropSpace.exemptions_write ";" true) fun _ => .pure

theorem grants_setLineEnded (ended : Bool) : Grants 0 (setLineEnded ended) :=
  fun _ => rfl

theorem grants_repeatedKeyword (declared : Variable) (indented : Bool) :
    Grants 0 (repeatedKeyword declared indented) := by
  unfold repeatedKeyword
  cases declared.keyword with
  | none => exact .pure
  | some keyword =>
    exact (grants_writeToken keyword true).after fun _ => (grants_trivia _ rfl).after fun _ => .pure

theorem grants_variableTrivia (trailing : Trivia) (indented : Bool) :
    Grants 0 (variableTrivia trailing indented) := by
  unfold variableTrivia
  refine .ite (fun _ => .pure) fun _ => grants_openFrame.after fun _ => ?_
  refine (grants_trivia trailing rfl).after fun moved => .ite (fun _ => .pure) fun _ => ?_
  exact grants_closeFrame.after fun _ => .pure

theorem grants_variableList (endDelimited : Bool) (items : List (Item Variable)) (indented : Bool) :
    Grants (variablesGrants items) (variableList endDelimited items indented) := by
  induction items generalizing indented with
  | nil => exact .pure
  | cons item others ih =>
    obtain ⟨declared, trailing⟩ := item
    unfold variableList
    refine (grants_repeatedKeyword declared indented).after fun indented => ?_
    refine grants_openFrame.after fun _ => (grants_expr declared.target).bind fun _ => ?_
    refine grants_dropSpace.after fun _ => grants_closeFrame.after fun _ => .read fun page => ?_
    have rest : ∀ openEnd, Grants (variablesGrants others) (do
        let indented ← variableTrivia trailing indented
        if others.isEmpty then
          return (indented, openEnd)
        else
          variableList endDelimited others indented) := by
      intro openEnd
      refine (grants_variableTrivia trailing indented).after fun indented => ?_
      refine .ite (fun none => ?_) fun _ => ih indented
      rw [List.isEmpty_iff] at none
      rw [none]
      exact .pure
    refine .ite (fun _ => (grants_write _ true).after fun _ => rest _) fun _ => ?_
    exact .optional grants_placeSemicolon (rest _)

theorem grants_declaration (keyword : Token) (afterKeyword : Trivia) (declared : Series Variable)
    (written : Bool) :
    Grants (variablesGrants declared.items) (declaration keyword afterKeyword declared written) := by
  have broken : Grants 0 (do newline .stay; setLineEnded true) :=
    (grants_newline .stay).after fun _ => grants_setLineEnded true
  unfold declaration
  refine (grants_writeToken keyword true).after fun _ => (grants_trivia afterKeyword rfl).after fun moved => ?_
  refine (grants_variableList declared.endDelimited declared.items moved).before fun listed => ?_
  refine .optional (grants_semicolonIf written) ?_
  refine .optional grants_stepBack ?_
  exact .read fun page => .ite (fun _ => broken) fun _ => .pure

theorem claims_expr (expr : Expr) (page : Page) (some : expr.claims = true ∨ 0 < page.exemptions) :
    0 < (after (Print.expr expr) page).exemptions :=
  (grants_expr expr).pos expr.claims_iff_grants page some

theorem claims_betweenBranches (between : Trivia) (indented : Bool) (page : Page)
    (some : hasRemark between = true ∨ 0 < page.exemptions) :
    0 < (after (betweenBranches between indented) page).exemptions :=
  (grants_betweenBranches between indented).pos remarks_pos.symm page some

theorem claims_declaration (keyword : Token) (afterKeyword : Trivia) (declared : Series Variable)
    (written : Bool) (page : Page) (some : variablesClaim declared.items = true ∨ 0 < page.exemptions) :
    0 < (after (declaration keyword afterKeyword declared written) page).exemptions :=
  (grants_declaration keyword afterKeyword declared written).pos
    (variablesClaim_iff_grants declared.items) page some

end Print

end GmlLayout
