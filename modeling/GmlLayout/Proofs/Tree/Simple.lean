import GmlLayout.Proofs.Token.Apart
import GmlLayout.Proofs.Tree.Plain
import GmlLayout.Proofs.Tree.Precedence

/-!
Simple expressions are of the kinds that plain ones are of, without comments, and with line breaks only
where they are passed over or where their statement ends. A simple expression of a source is plain once
the line breaks are taken out of it: the grammar has nested it as its operators bind.
-/

namespace GmlLayout

namespace Token

def isPlainLiteral (token : Token) : Bool :=
  token.kind = .number || token.kind = .string && !runsOn .string token.lexeme.toList &&
    !token.lexeme.toList.head?.any (· == '@')

end Token

/-- Line breaks behind an expression, which count unless the expression is the last one of its statement. -/
def isSimpleEnd (last : Bool) (trailing : Trivia) : Bool :=
  trailing.isEmpty || last && trailing.all Token.isNewline

namespace Expr

def isIdentifier : Expr → Bool
  | .identifier .. => true
  | _ => false

def isDotted : Expr → Bool
  | .dotted .. => true
  | _ => false

mutual

/-- Whether the expression is simple; `last` tells that nothing of its statement follows it. -/
def isSimple (last : Bool) : Expr → Bool
  | .identifier token after => token.kind = .identifier && after.all Token.isNewline
  | .literal token after => token.isPlainLiteral && after.all Token.isNewline
  | .grouping afterOpen [inner] afterClose =>
    afterOpen.isEmpty && inner.isSimple false && afterClose.all Token.isNewline
  | .array afterOpen ⟨elements, endDelimited⟩ =>
    afterOpen.isEmpty && areSimple elements && endDelimited == elements.isEmpty
  | .call callee afterOpen ⟨arguments, endDelimited⟩ trailing =>
    callee.isIdentifier && callee.isSimple false && afterOpen.isEmpty && areSimple arguments &&
      endDelimited == arguments.isEmpty && isSimpleEnd last trailing
  | .access collection accessor indices trailing =>
    !collection.isDotted && collection.isSimple false && accessor.kind.isAccessor && !indices.isEmpty &&
      indicesSimple indices && isSimpleEnd last trailing
  | .dotted owner afterDot member trailing =>
    owner.ownsMembers && owner.isSimple false && afterDot.isEmpty && member.opening = some .identifier &&
      member.isSimple last && trailing.isEmpty
  | .step operand operator afterOperator =>
    operand.isSimple false && operator.kind.isStep && afterOperator.all Token.isNewline
  | .unary operator afterOperator operand =>
    operator.kind.isUnary && (!operand.isUnary || operator.kind.isNegation) &&
      afterOperator.all Token.isNewline && operand.isSimple last
  | .binary left _ afterOperator right => left.isSimple false && afterOperator.isEmpty && right.isSimple last
  | .ternary condition afterHook whenTrue afterColon whenFalse =>
    condition.isSimple false && afterHook.all Token.isNewline && whenTrue.isSimple false &&
      afterColon.all Token.isNewline && whenFalse.isSimple last
  | .assign target operator afterOperator value =>
    target.isSimple false && operator.kind.isAssignment && afterOperator.all Token.isNewline &&
      value.isSimple last
  | _ => false

def areSimple : List (Item Expr) → Bool
  | [] => true
  | ⟨value, trailing⟩ :: others => value.isSimple false && trailing.isEmpty && areSimple others

def indicesSimple : List (Trivia × Expr) → Bool
  | [] => true
  | (before, index) :: others => before.all Token.isNewline && index.isSimple false && indicesSimple others

end

mutual

def bare : Expr → Expr
  | .identifier token _ => .identifier token []
  | .literal token _ => .literal token []
  | .grouping _ inner _ => .grouping [] (bareList inner) []
  | .array _ ⟨elements, endDelimited⟩ => .array [] ⟨bareItems elements, endDelimited⟩
  | .call callee _ ⟨arguments, endDelimited⟩ _ => .call callee.bare [] ⟨bareItems arguments, endDelimited⟩ []
  | .access collection accessor indices _ => .access collection.bare accessor (bareIndices indices) []
  | .dotted owner _ member _ => .dotted owner.bare [] member.bare []
  | .step operand operator _ => .step operand.bare operator []
  | .unary operator _ operand => .unary operator [] operand.bare
  | .binary left operator _ right => .binary left.bare operator [] right.bare
  | .ternary condition _ whenTrue _ whenFalse => .ternary condition.bare [] whenTrue.bare [] whenFalse.bare
  | .assign target operator _ value => .assign target.bare operator [] value.bare
  | expr => expr

def bareList : List Expr → List Expr
  | [] => []
  | first :: others => first.bare :: bareList others

def bareItems : List (Item Expr) → List (Item Expr)
  | [] => []
  | ⟨value, _⟩ :: others => ⟨value.bare, []⟩ :: bareItems others

def bareIndices : List (Trivia × Expr) → List (Trivia × Expr)
  | [] => []
  | (_, index) :: others => ([], index.bare) :: bareIndices others

end

theorem spaced_bare : ∀ expr : Expr, expr.bare.spaced = expr.spaced
  | .unary _ _ operand => spaced_bare operand
  | .binary _ _ _ right => spaced_bare right
  | .assign _ _ _ value => spaced_bare value
  | .dotted _ _ member _ => spaced_bare member
  | .ternary _ _ _ _ whenFalse => spaced_bare whenFalse
  | .call _ _ ⟨_, _⟩ _ | .function .. | .lifetime .. | .grouping .. | .array _ ⟨_, _⟩ | .literal .. => rfl
  | .numberStartDot .. | .numberEndDot .. | .step .. | .identifier .. | .access .. | .newline => rfl
  | .lineComment _ | .blockComment _ | .unidentified .. => rfl

theorem opening_bare : ∀ expr : Expr, expr.bare.opening = expr.opening
  | .call callee _ ⟨_, _⟩ _ => opening_bare callee
  | .binary left _ _ _ => opening_bare left
  | .step operand _ _ => opening_bare operand
  | .assign target _ _ _ => opening_bare target
  | .dotted owner _ _ _ => opening_bare owner
  | .access collection _ _ _ => opening_bare collection
  | .ternary condition _ _ _ _ => opening_bare condition
  | .function .. | .grouping .. | .array _ ⟨_, _⟩ | .literal .. | .identifier .. | .numberStartDot .. => rfl
  | .numberEndDot .. | .unary .. | .lifetime .. | .unidentified .. | .lineComment _ | .blockComment _ => rfl
  | .newline => rfl

theorem isUnary_bare (expr : Expr) : expr.bare.isUnary = expr.isUnary := by
  cases expr <;> rfl

theorem ownsMembers_bare (expr : Expr) : expr.bare.ownsMembers = expr.ownsMembers := by
  cases expr <;> rfl

mutual

theorem pieces_bare : ∀ expr : Expr, expr.bare.pieces = expr.pieces
  | .call callee _ ⟨arguments, _⟩ _ => by
    rw [bare, pieces, pieces, pieces_bare callee, itemPieces_bare arguments]
  | .binary left _ _ right => by rw [bare, pieces, pieces, pieces_bare left, pieces_bare right]
  | .grouping _ [inner] _ => by
    rw [bare, bareList, bareList, pieces, pieces, pieces_bare inner]
  | .array _ ⟨elements, _⟩ => by rw [bare, pieces, pieces, itemPieces_bare elements]
  | .step operand _ _ => by rw [bare, pieces, pieces, pieces_bare operand]
  | .assign target _ _ value => by
    rw [bare, pieces, pieces, pieces_bare target, spaced_bare target, pieces_bare value]
  | .dotted owner _ member _ => by rw [bare, pieces, pieces, pieces_bare owner, pieces_bare member]
  | .access collection _ indices _ => by
    rw [bare, pieces, pieces, pieces_bare collection, indexPieces_bare indices]
  | .ternary condition _ whenTrue _ whenFalse => by
    rw [bare, pieces, pieces, pieces_bare condition, spaced_bare condition, pieces_bare whenTrue,
      spaced_bare whenTrue, pieces_bare whenFalse]
  | .unary _ _ operand => by rw [bare, pieces, pieces, pieces_bare operand]
  | .grouping _ [] _ | .grouping _ (_ :: _ :: _) _ | .function .. | .literal .. | .identifier .. => rfl
  | .numberStartDot .. | .numberEndDot .. | .lifetime .. | .unidentified .. | .lineComment _ => rfl
  | .blockComment _ | .newline => rfl

theorem itemPieces_bare : ∀ items : List (Item Expr), itemPieces (bareItems items) = itemPieces items
  | [] => rfl
  | ⟨value, _⟩ :: others => by rw [bareItems, itemPieces, itemPieces, pieces_bare value, itemPieces_bare others]

theorem indexPieces_bare : ∀ indices : List (Trivia × Expr),
    indexPieces (bareIndices indices) = indexPieces indices
  | [] => rfl
  | (_, index) :: others => by
    rw [bareIndices, indexPieces, indexPieces, pieces_bare index, indexPieces_bare others]

end

end Expr

/-- The strength of the expressions that bind at least as tightly as the level says. -/
def Strength.atLevel : Nat → Strength
  | 0 => .assignment
  | 1 => .ternary
  | 11 => .unary
  | 12 => .stepped
  | 13 => .call
  | 14 => .owner
  | level => .tiers (Tier.all.drop (level - 2))

namespace Plain

variable {expr : Expr}

theorem atLevel_of_succ {level : Nat} (known : level < 14) (plain : Plain (.atLevel (level + 1)) expr) :
    Plain (.atLevel level) expr := by
  match level, known with
  | 0, _ => exact .value plain
  | 1, _ => exact .binary plain
  | 2, _ | 3, _ | 4, _ | 5, _ | 6, _ | 7, _ | 8, _ | 9, _ => exact .tighter plain
  | 10, _ => exact .tighter (.operand plain)
  | 11, _ => exact .stepped plain
  | 12, _ => exact .called plain
  | 13, _ => exact .owned plain

theorem atLevel_of_le {level least : Nat} (known : level ≤ 14) (plain : Plain (.atLevel level) expr)
    (least_le : least ≤ level) : Plain (.atLevel least) expr := by
  induction level with
  | zero => rwa [Nat.le_zero.mp least_le]
  | succ level ih =>
    obtain rfl | tighter := Nat.eq_or_lt_of_le least_le
    · exact plain
    · exact ih (by omega) (plain.atLevel_of_succ (by omega)) (by omega)

end Plain

theorem exists_tier {kind : Kind} {level : Nat} (known : kind.level? = some level) :
    ∃ tier tighter, tier :: tighter <:+ Tier.all ∧ tier.joins kind = true ∧
      Strength.atLevel level = .tiers (tier :: tighter) ∧
      ∀ expr, Plain (.atLevel (level + 1)) expr → Plain (.tiers tighter) expr := by
  have found : ∃ tier tighter, Tier.all.drop (level - 2) = tier :: tighter ∧ tier.joins kind = true ∧
      Strength.atLevel level = .tiers (Tier.all.drop (level - 2)) ∧
      ∀ expr, Plain (.atLevel (level + 1)) expr → Plain (.tiers tighter) expr := by
    unfold Kind.level? at known
    split at known <;> cases known <;> first
      | exact ⟨_, _, rfl, rfl, rfl, fun _ plain => plain⟩
      | exact ⟨_, _, rfl, rfl, rfl, fun _ plain => .operand plain⟩
  obtain ⟨tier, tighter, shape, joins, strength, right⟩ := found
  exact ⟨tier, tighter, shape ▸ List.drop_suffix _ _, joins, shape ▸ strength, right⟩

namespace Token

variable {source : String} {token : Token}

theorem isRead_of_mem_scan (member : token ∈ scan source) (carries : token.kind.carriesText = true) :
    token.IsRead := by
  have noBreak : token.kind ≠ .newline := by
    intro isBreak
    rw [isBreak] at carries
    cases carries
  obtain ⟨rest, cut⟩ := exists_cut_of_mem_scan member noBreak
  obtain ⟨first, others, _, kind, payload⟩ := exists_read_of_mem_tokens member
  rw [Munch.payload, ← kind, if_pos carries] at payload
  rw [lexeme_of_text payload] at cut
  exact ⟨_, rest, payload, cut⟩

theorem isOperator_of_mem_scan {accepted : Kind → Bool} (member : token ∈ scan source)
    (isAccepted : accepted token.kind = true) (spelt : token.kind.IsSpelt) : token.IsOperator accepted := by
  obtain ⟨first, others, _, kind, payload⟩ := exists_read_of_mem_tokens member
  have textless : token.kind.carriesText = false ∧ token.kind ≠ .newline := by
    obtain ⟨_, isMark, _⟩ | ⟨_, isWord⟩ := spelt
    · rw [isMark]
      exact ⟨rfl, nofun⟩
    · rw [isWord]
      exact ⟨rfl, nofun⟩
  rw [Munch.payload, ← kind, textless.1] at payload
  exact ⟨isAccepted, by simpa [textless.2] using payload⟩

theorem isLiteral_of_mem_scan (member : token ∈ scan source) (plain : token.isPlainLiteral = true) :
    token.IsLiteral := by
  simp only [isPlainLiteral, Bool.or_eq_true, Bool.and_eq_true, decide_eq_true_eq, Bool.not_eq_true'] at plain
  obtain isNumber | ⟨⟨isString, closed⟩, quoted⟩ := plain
  · exact ⟨isRead_of_mem_scan member (by rw [isNumber]; rfl), .inl isNumber⟩
  · refine ⟨isRead_of_mem_scan member (by rw [isString]; rfl), .inr ⟨isString, closed, ?_⟩⟩
    rw [Starts, quoted]
    decide

end Token

namespace Expr

/-- The expression is graded and made of tokens of the source, and so are its parts. -/
def IsRead (source : String) (expr : Expr) : Prop :=
  All (fun part => part.Graded ∧ part.Formed (· ∈ scan source)) expr.parts

/-- The level of the expression; calls and accesses count as what a member may belong to. -/
def rank : Expr → Nat
  | .call .. | .access .. => 14
  | expr => expr.level

theorem rank_le (expr : Expr) : expr.rank ≤ 14 := by
  unfold rank
  split
  · exact Nat.le_refl _
  · exact Nat.le_refl _
  · exact level_le expr

theorem level_le_rank (expr : Expr) : expr.level ≤ expr.rank := by
  unfold rank
  split
  · exact level_le _
  · exact level_le _
  · exact Nat.le_refl _

theorem level?_bounds {kind : Kind} {level : Nat} (known : kind.level? = some level) : 2 ≤ level ∧ level ≤ 10 := by
  unfold Kind.level? at known
  split at known <;> cases known <;> decide

theorem rank_of_level {expr : Expr} (tight : 13 ≤ expr.level) (undotted : expr.isDotted = false) :
    expr.rank = 14 := by
  cases expr with
  | dotted => cases undotted
  | binary left operator afterOperator right =>
    cases found : operator.kind.level? with
    | none => simp [level, found] at tight
    | some own =>
      have bounds := level?_bounds found
      simp only [level, found, Option.getD_some] at tight
      omega
  | assign | function | lifetime | ternary | unary | step => simp [level] at tight
  | _ => rfl

theorem rank_of_ownsMembers {expr : Expr} (owns : expr.ownsMembers = true) : expr.rank = 14 := by
  cases expr with
  | identifier | call | grouping | access => rfl
  | _ => cases owns

theorem isSimple_binds {expr : Expr} {last : Bool} (simple : expr.isSimple last = true)
    (graded : expr.Graded) (other : expr.isAssignment = false) : 1 ≤ expr.level := by
  cases expr with
  | assign => cases other
  | function | lifetime => simp [isSimple] at simple
  | binary left operator afterOperator right =>
    cases found : operator.kind.level? with
    | none => simp [Graded, found] at graded
    | some own =>
      have bounds := level?_bounds found
      simp only [level, found, Option.getD_some]
      omega
  | _ => simp [level]

theorem exists_identifier {expr : Expr} (isName : expr.isIdentifier = true) :
    ∃ token after, expr = .identifier token after := by
  cases expr with
  | identifier token after => exact ⟨token, after, rfl⟩
  | _ => cases isName

section

variable {source : String}

theorem mem_parts_self (expr : Expr) : expr ∈ expr.parts := by
  unfold parts
  split <;> exact List.mem_cons_self

theorem plain_least {expr : Expr} (plain : Plain (.atLevel expr.rank) expr.bare) {least : Nat}
    (binds : least ≤ expr.level) : Plain (.atLevel least) expr.bare :=
  plain.atLevel_of_le expr.rank_le (Nat.le_trans binds expr.level_le_rank)

theorem plain_any {expr : Expr} (plain : Plain (.atLevel expr.rank) expr.bare) :
    Plain .assignment expr.bare :=
  plain_least plain (Nat.zero_le _)

theorem isEmpty_bareItems (items : List (Item Expr)) : (bareItems items).isEmpty = items.isEmpty := by
  cases items <;> rfl

theorem plain_binary {left right : Expr} {operator : Token} {afterOperator : Trivia}
    (graded : (Expr.binary left operator afterOperator right).Graded) (member : operator ∈ scan source)
    (leftPlain : Plain (.atLevel left.rank) left.bare) (rightPlain : Plain (.atLevel right.rank) right.bare) :
    Plain (.atLevel (Expr.binary left operator afterOperator right).rank)
      (Expr.binary left operator afterOperator right).bare := by
  cases found : operator.kind.level? with
  | none => simp [Graded, found] at graded
  | some own =>
    obtain ⟨tier, tighter, known, joins, strength, tighten⟩ := exists_tier found
    obtain ⟨level, sides⟩ := level?_of_joins known joins
    rw [found] at level
    have spelt := Kind.isSpelt_of_joins (known.subset List.mem_cons_self) _ joins
    have isOperator := Token.isOperator_of_mem_scan member joins spelt
    have rank : (Expr.binary left operator afterOperator right).rank = own := by
      simp [Expr.rank, Expr.level, found]
    rw [← Option.some.inj level] at sides
    simp only [Graded, found] at graded
    rw [rank, strength, bare]
    have same : ∀ {expr : Expr}, Plain (.atLevel own) expr → Plain (.tiers (tier :: tighter)) expr :=
      fun plain => strength ▸ plain
    split at graded
    · rename_i loose
      exact .rightward known (sides.mpr loose) (tighten _ (plain_least leftPlain graded.1)) isOperator
        (same (plain_least rightPlain graded.2))
    · rename_i tight
      have side : tier.side = .left := by
        cases side : tier.side with
        | left => rfl
        | right => exact absurd (sides.mp side) tight
      exact .leftward known side (same (plain_least leftPlain graded.1)) isOperator
        (tighten _ (plain_least rightPlain graded.2))

theorem isName_of_isSimple {token : Token} {after : Trivia} {last : Bool}
    (simple : (Expr.identifier token after).isSimple last = true)
    (read : (Expr.identifier token after).IsRead source) : token.IsName := by
  simp only [isSimple, Bool.and_eq_true, decide_eq_true_eq] at simple
  have member : token ∈ scan source := (List.forall_mem_singleton.mp read).2.1.1
  exact ⟨simple.1, Token.isRead_of_mem_scan member (by rw [simple.1]; rfl)⟩

mutual

theorem plain_bare : ∀ {expr : Expr} {last : Bool}, expr.isSimple last = true → expr.IsRead source →
    Plain (.atLevel expr.rank) expr.bare
  | .identifier token after, _, simple, read => .identifier (isName_of_isSimple simple read)
  | .literal token after, _, simple, read => by
    simp only [isSimple, Bool.and_eq_true] at simple
    have member : token ∈ scan source := (List.forall_mem_singleton.mp read).2.1.1
    exact .literal (Token.isLiteral_of_mem_scan member simple.1)
  | .grouping afterOpen [inner] afterClose, _, simple, read => by
    simp only [isSimple, Bool.and_eq_true] at simple
    have innerRead : inner.IsRead source := by
      simp only [IsRead, All, parts, listParts, List.forall_mem_cons, List.append_nil] at read
      exact read.2
    exact .grouping (plain_any (plain_bare simple.1.2 innerRead))
  | .array afterOpen ⟨elements, endDelimited⟩, _, simple, read => by
    simp only [isSimple, Bool.and_eq_true, beq_iff_eq] at simple
    simp only [IsRead, All, parts, List.forall_mem_cons] at read
    have items := plain_items simple.1.2 read.2
    rw [bare, simple.2, ← isEmpty_bareItems]
    exact .array (fun item member => (items item member).1) fun item member => (items item member).2
  | .call callee afterOpen ⟨arguments, endDelimited⟩ trailing, _, simple, read => by
    simp only [isSimple, Bool.and_eq_true, beq_iff_eq] at simple
    simp only [IsRead, All, parts, List.forall_mem_cons, List.forall_mem_append] at read
    obtain ⟨⟨⟨⟨⟨isName, calleeSimple⟩, _⟩, itemsSimple⟩, delimited⟩, _⟩ := simple
    obtain ⟨token, after, rfl⟩ := exists_identifier isName
    have items := plain_items itemsSimple read.2.2
    rw [bare, delimited, ← isEmpty_bareItems]
    exact .call (isName_of_isSimple calleeSimple read.2.1) (fun item member => (items item member).1)
      fun item member => (items item member).2
  | .access collection accessor indices trailing, _, simple, read => by
    simp only [isSimple, Bool.and_eq_true, Bool.not_eq_true', List.isEmpty_eq_false_iff] at simple
    simp only [IsRead, All, parts, List.forall_mem_cons, List.forall_mem_append] at read
    obtain ⟨⟨⟨⟨⟨undotted, collectionSimple⟩, isAccessor⟩, nonempty⟩, indicesSimple⟩, _⟩ := simple
    obtain ⟨⟨graded, formed⟩, collectionRead, indicesRead⟩ := read
    have owner := plain_bare collectionSimple collectionRead
    rw [rank_of_level graded undotted] at owner
    obtain ⟨symbol, isMark, known, _⟩ := Kind.isSpelt_of_isAccessor _ isAccessor
    have operator := Token.isOperator_of_mem_scan formed.2.1.1 isAccessor (.inl ⟨symbol, isMark, known⟩)
    have each := plain_indices indicesSimple indicesRead
    refine .access owner operator ?_ (fun index member => (each index member).1)
      fun index member => (each index member).2
    obtain ⟨index, others, rfl⟩ := List.exists_cons_of_ne_nil nonempty
    exact List.cons_ne_nil _ _
  | .dotted owner afterDot member trailing, last, simple, read => by
    simp only [isSimple, Bool.and_eq_true, decide_eq_true_eq] at simple
    simp only [IsRead, All, parts, List.forall_mem_cons, List.forall_mem_append] at read
    obtain ⟨⟨⟨⟨⟨owns, ownerSimple⟩, _⟩, starts⟩, memberSimple⟩, _⟩ := simple
    obtain ⟨⟨graded, _⟩, ownerRead, memberRead⟩ := read
    have plain := plain_bare ownerSimple ownerRead
    rw [rank_of_ownsMembers owns] at plain
    exact .dotted plain ((ownsMembers_bare owner).trans owns)
      (plain_least (plain_bare memberSimple memberRead) graded.2) ((opening_bare member).trans starts)
  | .step operand operator afterOperator, _, simple, read => by
    simp only [isSimple, Bool.and_eq_true] at simple
    simp only [IsRead, All, parts, List.forall_mem_cons] at read
    obtain ⟨⟨operandSimple, isStep⟩, _⟩ := simple
    obtain ⟨⟨graded, formed⟩, operandRead⟩ := read
    obtain ⟨symbol, isMark, known, _⟩ := Kind.isSpelt_of_isStep _ isStep
    exact .step (plain_least (plain_bare operandSimple operandRead) graded)
      (Token.isOperator_of_mem_scan formed.2.1.1 isStep (.inl ⟨symbol, isMark, known⟩))
  | .unary operator afterOperator operand, last, simple, read => by
    simp only [isSimple, Bool.and_eq_true] at simple
    simp only [IsRead, All, parts, List.forall_mem_cons] at read
    obtain ⟨⟨⟨isUnary, apart⟩, _⟩, operandSimple⟩ := simple
    obtain ⟨⟨graded, formed⟩, operandRead⟩ := read
    refine .unary (Token.isOperator_of_mem_scan formed.1.1 isUnary (Kind.isSpelt_of_isUnary _ isUnary))
      (plain_least (plain_bare operandSimple operandRead) graded) fun nested => ?_
    rw [isUnary_bare] at nested
    simpa [nested] using apart
  | .binary left operator afterOperator right, last, simple, read => by
    simp only [isSimple, Bool.and_eq_true] at simple
    simp only [IsRead, All, parts, List.forall_mem_cons, List.forall_mem_append] at read
    exact plain_binary read.1.1 read.1.2.2.2.1.1 (plain_bare simple.1.1 read.2.1)
      (plain_bare simple.2 read.2.2)
  | .ternary condition afterHook whenTrue afterColon whenFalse, last, simple, read => by
    simp only [isSimple, Bool.and_eq_true] at simple
    simp only [IsRead, All, parts, List.forall_mem_cons, List.forall_mem_append] at read
    obtain ⟨⟨⟨⟨conditionSimple, _⟩, trueSimple⟩, _⟩, falseSimple⟩ := simple
    obtain ⟨⟨⟨first, second, third⟩, _⟩, ⟨conditionRead, trueRead⟩, falseRead⟩ := read
    exact .ternary (plain_least (plain_bare conditionSimple conditionRead) first)
      (plain_least (plain_bare trueSimple trueRead) second) (plain_least (plain_bare falseSimple falseRead) third)
  | .assign target operator afterOperator value, last, simple, read => by
    simp only [isSimple, Bool.and_eq_true] at simple
    simp only [IsRead, All, parts, List.forall_mem_cons, List.forall_mem_append] at read
    obtain ⟨⟨⟨targetSimple, isAssignment⟩, _⟩, valueSimple⟩ := simple
    obtain ⟨⟨graded, formed⟩, targetRead, valueRead⟩ := read
    have binds := isSimple_binds targetSimple (targetRead _ target.mem_parts_self).1 graded
    obtain ⟨symbol, isMark, known, _⟩ := Kind.isSpelt_of_isAssignment _ isAssignment
    exact .assign (plain_least (plain_bare targetSimple targetRead) binds)
      (Token.isOperator_of_mem_scan formed.2.1.1 isAssignment (.inl ⟨symbol, isMark, known⟩))
      (plain_any (plain_bare valueSimple valueRead))
  | .grouping _ [] _, _, simple, _ | .grouping _ (_ :: _ :: _) _, _, simple, _ => by cases simple
  | .function .., _, simple, _ | .numberStartDot .., _, simple, _ | .numberEndDot .., _, simple, _ => by
    cases simple
  | .lifetime .., _, simple, _ | .unidentified .., _, simple, _ | .newline, _, simple, _ => by cases simple
  | .lineComment _, _, simple, _ | .blockComment _, _, simple, _ => by cases simple

theorem plain_items : ∀ {items : List (Item Expr)}, areSimple items = true →
    All (fun part => part.Graded ∧ part.Formed (· ∈ scan source)) (entryParts items) →
    ∀ item ∈ bareItems items, item.trailing = [] ∧ Plain .assignment item.value
  | [], _, _ => nofun
  | ⟨value, trailing⟩ :: others, simple, read => by
    simp only [areSimple, Bool.and_eq_true] at simple
    simp only [All, entryParts, List.forall_mem_append] at read
    rw [bareItems]
    exact List.forall_mem_cons.mpr ⟨⟨rfl, plain_any (plain_bare simple.1.1 read.1)⟩,
      plain_items simple.2 read.2⟩

theorem plain_indices : ∀ {indices : List (Trivia × Expr)}, indicesSimple indices = true →
    All (fun part => part.Graded ∧ part.Formed (· ∈ scan source)) (indexParts indices) →
    ∀ index ∈ bareIndices indices, index.1 = [] ∧ Plain .assignment index.2
  | [], _, _ => nofun
  | (before, index) :: others, simple, read => by
    simp only [indicesSimple, Bool.and_eq_true] at simple
    simp only [All, indexParts, List.forall_mem_append] at read
    rw [bareIndices]
    exact List.forall_mem_cons.mpr ⟨⟨rfl, plain_any (plain_bare simple.1.2 read.1)⟩,
      plain_indices simple.2 read.2⟩

end

end

end Expr

end GmlLayout
