import GmlLayout.Proofs.Grammar.Leads

/-!
Plain expressions are read back from their tokens. A parser of some strength stops in front of every token
that does not go on with an expression of that strength, and it has then built the expression that the
tokens were written for. Where a parser repeats a step, the statement is about the point where the next
repetition is due, with the repetitions that are left.
-/

namespace GmlLayout

open Piece (mark gap)

@[simp] theorem wovenTokens_nil : wovenTokens [] = [] := rfl

@[simp] theorem wovenTokens_some (token : Token) (pieces : List Piece) :
    wovenTokens (some token :: pieces) = token :: wovenTokens pieces := rfl

@[simp] theorem wovenTokens_none (pieces : List Piece) :
    wovenTokens (none :: pieces) = wovenTokens pieces := rfl

@[simp] theorem wovenTokens_mark (symbol : Symbol) (pieces : List Piece) :
    wovenTokens (mark symbol :: pieces) = .ofKind (.symbol symbol) :: wovenTokens pieces := rfl

@[simp] theorem wovenTokens_append (front back : List Piece) :
    wovenTokens (front ++ back) = wovenTokens front ++ wovenTokens back :=
  List.filterMap_append

@[simp] theorem wovenTokens_gap (spaced : Bool) : wovenTokens (gap spaced) = [] := by
  cases spaced <;> rfl

def Expr.tokens (expr : Expr) : List Token :=
  wovenTokens expr.pieces

def Kind.openings : List Kind :=
  [.identifier, .number, .string, .symbol .leftParen, .symbol .leftBracket, .symbol .bang, .symbol .minus,
   .symbol .plus, .symbol .tilde, .symbol .increment, .symbol .decrement, .keyword .notWord]

theorem Token.OpensPlain.mem_openings {token : Token} (opens : token.OpensPlain) :
    token.kind ∈ Kind.openings := by
  obtain ⟨operand, _⟩ | ⟨accepted, _⟩ := opens
  · unfold Kind.opensOperand at operand
    split at operand <;> first | cases operand; done | simp [Kind.openings, *]
  · unfold Kind.isUnary at accepted
    split at accepted <;> first | cases accepted; done | simp [Kind.openings, *]

namespace Plain

variable {strength : Strength} {expr : Expr}

theorem exists_tokens (plain : Plain strength expr) : ∃ first others, expr.tokens = first :: others ∧
    (first.OpensOperand ∨ first.IsOperator Kind.isUnary ∧ strength.AdmitsOperator expr) := by
  obtain ⟨first, last, woven⟩ := plain.woven
  obtain ⟨others, shape⟩ := woven.weave.exists_tokens
  exact ⟨first, others, shape, woven.opens⟩

theorem exists_opening (plain : Plain strength expr) : ∃ first others, expr.tokens = first :: others ∧
    expr.opening = some first.kind ∧ first.kind ∈ Kind.openings := by
  obtain ⟨first, last, woven⟩ := plain.woven
  obtain ⟨others, shape⟩ := woven.weave.exists_tokens
  exact ⟨first, others, shape, woven.opening, woven.opensPlain.mem_openings⟩

theorem length_tokens (plain : Plain strength expr) : 0 < expr.tokens.length := by
  obtain ⟨first, others, shape, _⟩ := plain.exists_tokens
  rw [shape]
  exact Nat.succ_pos _

theorem ends (plain : Plain strength expr) {takes : Kind → Bool}
    (apart : Kind.openings.all (fun kind => !takes kind) = true) (rest : List Token) :
    Ends takes (expr.tokens ++ rest) := by
  obtain ⟨first, others, shape, _, known⟩ := plain.exists_opening
  rw [shape]
  exact .cons (by simpa using List.all_eq_true.mp apart _ known)

theorem sees (plain : Plain strength expr) {accepted : Kind → Bool}
    (all : Kind.openings.all accepted = true) {rest : List Token} :
    Leads (Parse.sees accepted) (pure true) (expr.tokens ++ rest) (expr.tokens ++ rest) := by
  obtain ⟨first, others, shape, _, known⟩ := plain.exists_opening
  rw [shape]
  exact .seesTrue (List.all_eq_true.mp all _ known)

end Plain

namespace Kind

def continuesOwner (kind : Kind) : Bool :=
  kind.isTrivia || kind = .symbol .leftParen

def continuesCall (kind : Kind) : Bool :=
  kind.continuesOwner || (kind = .symbol .dot || kind.isAccessor)

def continuesOperand (kind : Kind) : Bool :=
  kind.continuesCall || kind.isStep

def continuesTiers (tiers : List Tier) (kind : Kind) : Bool :=
  kind.continuesOperand || tiers.any (·.joins kind)

def continuesTernary (kind : Kind) : Bool :=
  kind.continuesTiers Tier.all || kind = .symbol .hook

def continuesAssignment (kind : Kind) : Bool :=
  kind.continuesTernary || kind.isAssignment

end Kind

section

variable {rest : List Token}

theorem Ends.visible (ends : Ends Kind.continuesOwner rest) : Ends Kind.isTrivia rest :=
  ends.or_left

theorem Ends.unopened (ends : Ends Kind.continuesOwner rest) : Ends (· = .symbol .leftParen) rest :=
  ends.or_right

theorem Ends.owner (ends : Ends Kind.continuesCall rest) : Ends Kind.continuesOwner rest :=
  ends.or_left

theorem Ends.call (ends : Ends Kind.continuesOperand rest) : Ends Kind.continuesCall rest :=
  ends.or_left

theorem Ends.operand {tiers : List Tier} (ends : Ends (Kind.continuesTiers tiers) rest) :
    Ends Kind.continuesOperand rest :=
  ends.or_left

theorem Ends.tighter {tier : Tier} {tighter : List Tier}
    (ends : Ends (Kind.continuesTiers (tier :: tighter)) rest) :
    Ends (Kind.continuesTiers tighter) rest := by
  refine ends.weaken fun kind neither => ?_
  simp only [Kind.continuesTiers, List.any_cons, Bool.or_eq_false_iff] at neither ⊢
  exact ⟨neither.1, neither.2.2⟩

theorem Ends.unjoined {tier : Tier} {tighter : List Tier}
    (ends : Ends (Kind.continuesTiers (tier :: tighter)) rest) : Ends tier.joins rest := by
  refine ends.weaken fun kind neither => ?_
  simp only [Kind.continuesTiers, List.any_cons, Bool.or_eq_false_iff] at neither
  exact neither.2.1

theorem Ends.tiers (ends : Ends Kind.continuesTernary rest) : Ends (Kind.continuesTiers Tier.all) rest :=
  ends.or_left

theorem Ends.ternary (ends : Ends Kind.continuesAssignment rest) : Ends Kind.continuesTernary rest :=
  ends.or_left

end

/-- With rules for one token less, the parser reads the expression in front of everything that does not go
on with it. -/
def ReadBy (parser : Rules → Parse Expr) (continues : Kind → Bool) (expr : Expr) : Prop :=
  ∀ bound rest, expr.tokens.length ≤ bound + 1 → Ends continues rest →
    Leads (parser (.upTo bound)) (pure expr) (expr.tokens ++ rest) rest

/-- The parser gets to a repetition that has as many steps left as there can be tokens. -/
def ReachedBy (parser : Rules → Parse Expr) (further : Rules → Nat → Expr → Parse Expr)
    (continues : Kind → Bool) (expr : Expr) : Prop :=
  ∀ bound rest, expr.tokens.length ≤ bound + 1 → Ends continues rest →
    ∃ left, bound < left + expr.tokens.length ∧
      Leads (parser (.upTo bound)) (further (.upTo bound) left expr) (expr.tokens ++ rest) rest

def Strength.Read : Strength → Expr → Prop
  | .owner => ReachedBy Parse.call Parse.accesses Kind.continuesOwner
  | .call => ReadBy Parse.call Kind.continuesCall
  | .stepped => ReadBy Parse.stepped Kind.continuesOperand
  | .unary => ReadBy Parse.unary Kind.continuesOperand
  | .tiers [] => ReadBy (Parse.binary · []) (Kind.continuesTiers [])
  | .tiers (tier :: tighter) =>
    match tier.side with
    | .left => ReachedBy (Parse.binary · (tier :: tighter))
        (fun rules => Parse.chain (rules.binary tighter) tier.joins) (Kind.continuesTiers tighter)
    | .right => ReadBy (Parse.binary · (tier :: tighter)) (Kind.continuesTiers (tier :: tighter))
  | .ternary => ReadBy Parse.ternary Kind.continuesTernary
  | .assignment => ReadBy Parse.assignment Kind.continuesAssignment

open Parse

section

variable {bound : Nat} {rest : List Token} {expr : Expr}

theorem ReadBy.expression (read : ReadBy Parse.assignment Kind.continuesAssignment expr) :
    ReadBy Parse.expression Kind.continuesAssignment expr := by
  intro bound rest enough ends
  refine Leads.setAllowUnidentified.bind ((read bound rest enough ends).bind ?_)
  exact Leads.setCanPair.bind (Leads.setAllowUnidentified.bind .refl)

theorem reachedBy_primary (nonempty : 0 < expr.tokens.length) (read : ReadBy primary Kind.isTrivia expr) :
    ReachedBy Parse.call accesses Kind.continuesOwner expr := by
  intro bound rest enough ends
  refine ⟨(Rules.upTo bound).bound, by rw [Rules.bound_upTo]; omega, ?_⟩
  refine (read bound rest enough ends.visible).bind ?_
  exact Leads.bind ((Leads.acceptFalse ends.unopened).bind .refl) .refl

theorem readBy_identifier {token : Token} (isName : token.kind = .identifier) :
    ReadBy primary Kind.isTrivia (.identifier token []) := by
  intro bound rest enough ends
  refine (Leads.advance token).bind ?_
  simp only [isName]
  exact (Leads.slot ends).bind .refl

theorem readBy_literal {token : Token} (isLiteral : token.kind = .number ∨ token.kind = .string) :
    ReadBy primary Kind.isTrivia (.literal token []) := by
  intro bound rest enough ends
  refine (Leads.advance token).bind ?_
  obtain isNumber | isString := isLiteral
  · simp only [isNumber]
    exact (Leads.slot ends).bind .refl
  · simp only [isString]
    exact (Leads.slot ends).bind .refl

theorem tokens_grouping (inner : Expr) : (Expr.grouping [] [inner] []).tokens =
    .ofKind (.symbol .leftParen) :: (inner.tokens ++ [.ofKind (.symbol .rightParen)]) := by
  simp [Expr.tokens, Expr.pieces]

theorem readBy_grouping {inner : Expr} (plain : Plain .assignment inner)
    (read : ReadBy Parse.expression Kind.continuesAssignment inner) :
    ReadBy primary Kind.isTrivia (.grouping [] [inner] []) := by
  intro bound rest enough ends
  rw [tokens_grouping] at enough ⊢
  simp only [List.length_cons, List.length_append, List.length_nil] at enough
  obtain ⟨bound, rfl⟩ := Nat.exists_eq_add_one.mpr (show 0 < bound by omega)
  rw [List.cons_append, List.append_assoc]
  refine (Leads.advance _).bind ?_
  show Leads (grouping _) _ _ _
  refine (Leads.slot (plain.ends (by decide) _)).bind ?_
  refine (read bound _ (by omega) (.cons (by decide))).bind ?_
  refine Leads.bind ?_ ((Leads.slot ends).bind .refl)
  rw [Rules.bound_upTo]
  exact Leads.acceptMark.bind .refl

def listTokens (values : List Expr) : List Token :=
  wovenTokens (separated (values.map Expr.pieces))

theorem listTokens_single (value : Expr) : listTokens [value] = value.tokens := rfl

theorem listTokens_cons (value next : Expr) (others : List Expr) : listTokens (value :: next :: others) =
    value.tokens ++ .ofKind (.symbol .comma) :: listTokens (next :: others) := by
  simp [listTokens, separated, Expr.tokens]

theorem length_le_listTokens {α : Type} {entries : List α} {value : α → Expr}
    (plain : ∀ entry ∈ entries, Plain .assignment (value entry)) :
    entries.length ≤ (listTokens (entries.map value)).length := by
  induction entries with
  | nil => exact Nat.le_refl 0
  | cons entry others ih =>
    have here := (plain entry List.mem_cons_self).length_tokens
    cases others with
    | nil => exact here
    | cons next others =>
      have there := ih fun entry member => plain entry (List.mem_cons_of_mem _ member)
      simp only [List.map_cons, listTokens_cons, List.length_cons, List.length_append] at there ⊢
      omega

theorem ends_listTokens {value : Expr} (plain : Plain .assignment value) {takes : Kind → Bool}
    (apart : Kind.openings.all (fun kind => !takes kind) = true) {others : List Expr} :
    Ends takes (listTokens (value :: others) ++ rest) := by
  cases others with
  | nil => exact plain.ends apart rest
  | cons next others =>
    rw [listTokens_cons, List.append_assoc]
    exact plain.ends apart _

theorem leads_entries {items : List (Item Expr)} {closing : Symbol}
    (bracket : closing = .rightParen ∨ closing = .rightBracket)
    (bare : ∀ item ∈ items, item.trailing = []) (plain : ∀ item ∈ items, Plain .assignment item.value)
    (read : ∀ item ∈ items, ReadBy Parse.expression Kind.continuesAssignment item.value) {left : Nat}
    (enough : (listTokens (items.map Item.value)).length ≤ bound + 1) (steps : items.length < left) :
    Leads (entries (Parse.expression (.upTo bound)) (.symbol closing) left)
      (pure ⟨items, items.isEmpty⟩)
      (listTokens (items.map Item.value) ++ .ofKind (.symbol closing) :: rest)
      (.ofKind (.symbol closing) :: rest) := by
  induction items generalizing left with
  | nil =>
    obtain ⟨left, rfl⟩ := Nat.exists_eq_add_one.mpr (Nat.zero_lt_of_lt steps)
    exact (Leads.checkTrue (decide_eq_true rfl)).bind .refl
  | cons item items ih =>
    obtain ⟨value, trailing⟩ := item
    obtain rfl : trailing = [] := bare ⟨value, trailing⟩ List.mem_cons_self
    have here : Plain .assignment value := plain ⟨value, []⟩ List.mem_cons_self
    have readHere : ReadBy Parse.expression Kind.continuesAssignment value :=
      read ⟨value, []⟩ List.mem_cons_self
    obtain ⟨left, rfl⟩ := Nat.exists_eq_add_one.mpr (Nat.zero_lt_of_lt steps)
    have noClosing : Kind.openings.all (fun kind => !decide (kind = .symbol closing)) = true := by
      obtain rfl | rfl := bracket <;> decide
    have noTrivia : (Kind.symbol closing).isTrivia = false := rfl
    cases items with
    | nil =>
      have noComma : decide (Kind.symbol closing = .symbol .comma) = false := by
        obtain rfl | rfl := bracket <;> decide
      have closed : (Kind.symbol closing).continuesAssignment = false := by
        obtain rfl | rfl := bracket <;> decide
      refine (Leads.checkFalse (here.ends noClosing _)).bind ?_
      refine (readHere bound _ enough (.cons closed)).bind ?_
      refine (Leads.acceptFalse (.cons noComma)).bind ?_
      exact (Leads.slot (.cons noTrivia)).bind .refl
    | cons next items =>
      simp only [List.map_cons, listTokens_cons, List.length_append, List.length_cons, List.append_assoc,
        List.cons_append] at enough ⊢
      have others := ih (fun item member => bare item (List.mem_cons_of_mem _ member))
        (fun item member => plain item (List.mem_cons_of_mem _ member))
        (fun item member => read item (List.mem_cons_of_mem _ member))
        (by simp only [List.map_cons]; omega) (Nat.lt_of_succ_lt_succ steps)
      refine (Leads.checkFalse (here.ends noClosing _)).bind ?_
      refine (readHere bound _ (by omega) (.cons (by decide))).bind ?_
      refine Leads.acceptMark.bind ?_
      refine (Leads.slot (ends_listTokens (plain next (by simp)) (by decide))).bind ?_
      exact others.bind .refl

theorem leads_series {items : List (Item Expr)} {closing : Symbol}
    (bracket : closing = .rightParen ∨ closing = .rightBracket)
    (bare : ∀ item ∈ items, item.trailing = []) (plain : ∀ item ∈ items, Plain .assignment item.value)
    (read : ∀ item ∈ items, ReadBy Parse.expression Kind.continuesAssignment item.value)
    (enough : (listTokens (items.map Item.value)).length ≤ bound) :
    Leads (series (.upTo (bound + 1)) (.symbol closing)) (pure ⟨items, items.isEmpty⟩)
      (listTokens (items.map Item.value) ++ .ofKind (.symbol closing) :: rest) rest := by
  have fewer := length_le_listTokens plain
  have steps : items.length < (Rules.upTo (bound + 1)).bound := by
    rw [Rules.bound_upTo]
    omega
  have room : (listTokens (items.map Item.value)).length ≤ bound + 1 := by omega
  exact (leads_entries bracket bare plain read room steps).bind (Leads.acceptMark.bind .refl)

theorem visible_items {items : List (Item Expr)} (plain : ∀ item ∈ items, Plain .assignment item.value)
    (closing : Symbol) :
    Ends Kind.isTrivia (listTokens (items.map Item.value) ++ .ofKind (.symbol closing) :: rest) := by
  cases items with
  | nil => exact .cons rfl
  | cons item items => exact ends_listTokens (plain item List.mem_cons_self) (by decide)

theorem itemPieces_eq (items : List (Item Expr)) :
    Expr.itemPieces items = (items.map Item.value).map Expr.pieces := by
  rw [Expr.itemPieces_eq_map, List.map_map]
  rfl

theorem tokens_array (elements : List (Item Expr)) (endDelimited : Bool) :
    (Expr.array [] ⟨elements, endDelimited⟩).tokens = .ofKind (.symbol .leftBracket) ::
      (listTokens (elements.map Item.value) ++ [.ofKind (.symbol .rightBracket)]) := by
  simp [Expr.tokens, Expr.pieces, itemPieces_eq, listTokens]

theorem readBy_array {elements : List (Item Expr)} (bare : ∀ item ∈ elements, item.trailing = [])
    (plain : ∀ item ∈ elements, Plain .assignment item.value)
    (read : ∀ item ∈ elements, ReadBy Parse.expression Kind.continuesAssignment item.value) :
    ReadBy primary Kind.isTrivia (.array [] ⟨elements, elements.isEmpty⟩) := by
  intro bound rest enough ends
  rw [tokens_array] at enough ⊢
  simp only [List.length_cons, List.length_append, List.length_nil] at enough
  obtain ⟨bound, rfl⟩ := Nat.exists_eq_add_one.mpr (show 0 < bound by omega)
  rw [List.cons_append, List.append_assoc]
  refine (Leads.advance _).bind ?_
  show Leads (array _) _ _ _
  refine (Leads.slot (visible_items plain _)).bind ?_
  exact (leads_series (.inr rfl) bare plain read (by omega)).bind .refl

theorem tokens_call (callee : Token) (arguments : List (Item Expr)) (endDelimited : Bool) :
    (Expr.call (.identifier callee []) [] ⟨arguments, endDelimited⟩ []).tokens =
      callee :: .ofKind (.symbol .leftParen) ::
        (listTokens (arguments.map Item.value) ++ [.ofKind (.symbol .rightParen)]) := by
  simp [Expr.tokens, Expr.pieces, itemPieces_eq, listTokens]

theorem reachedBy_call {callee : Token} {arguments : List (Item Expr)} (isName : callee.kind = .identifier)
    (bare : ∀ item ∈ arguments, item.trailing = [])
    (plain : ∀ item ∈ arguments, Plain .assignment item.value)
    (read : ∀ item ∈ arguments, ReadBy Parse.expression Kind.continuesAssignment item.value) :
    ReachedBy Parse.call accesses Kind.continuesOwner
      (.call (.identifier callee []) [] ⟨arguments, arguments.isEmpty⟩ []) := by
  intro bound rest enough ends
  rw [tokens_call] at enough ⊢
  simp only [List.length_cons, List.length_append, List.length_nil] at enough ⊢
  obtain ⟨bound, rfl⟩ := Nat.exists_eq_add_one.mpr (show 0 < bound by omega)
  refine ⟨(Rules.upTo (bound + 1)).bound, by rw [Rules.bound_upTo]; omega, ?_⟩
  rw [List.cons_append, List.cons_append, List.append_assoc]
  refine (readBy_identifier isName (bound + 1) _ (by simp [Expr.tokens, Expr.pieces]) (.cons rfl)).bind ?_
  refine Leads.bind ?_ .refl
  refine Leads.acceptMark.bind ?_
  refine (Leads.slot (visible_items plain _)).bind ?_
  refine (leads_series (.inl rfl) bare plain read (by omega)).bind ?_
  exact (Leads.slot ends.visible).bind .refl

theorem leads_indices {indices : List (Trivia × Expr)} (nonempty : indices ≠ [])
    (bare : ∀ index ∈ indices, index.1 = []) (plain : ∀ index ∈ indices, Plain .assignment index.2)
    (read : ∀ index ∈ indices, ReadBy Parse.expression Kind.continuesAssignment index.2) {left : Nat}
    (enough : (listTokens (indices.map Prod.snd)).length ≤ bound + 1) (steps : indices.length ≤ left) :
    Leads (Parse.indices (Parse.expression (.upTo bound)) left) (pure indices)
      (listTokens (indices.map Prod.snd) ++ .ofKind (.symbol .rightBracket) :: rest)
      (.ofKind (.symbol .rightBracket) :: rest) := by
  induction indices generalizing left with
  | nil => exact absurd rfl nonempty
  | cons index indices ih =>
    obtain ⟨before, value⟩ := index
    obtain rfl : before = [] := bare ⟨before, value⟩ List.mem_cons_self
    have here : Plain .assignment value := plain ⟨[], value⟩ List.mem_cons_self
    have readHere : ReadBy Parse.expression Kind.continuesAssignment value :=
      read ⟨[], value⟩ List.mem_cons_self
    obtain ⟨left, rfl⟩ := Nat.exists_eq_add_one.mpr (Nat.zero_lt_of_lt steps)
    cases indices with
    | nil =>
      simp only [List.map_cons, List.map_nil, listTokens_single] at enough ⊢
      refine (here.sees (by decide)).bind ?_
      refine (Leads.slot (here.ends (by decide) _)).bind ?_
      refine (readHere bound _ enough (.cons (by decide))).bind ?_
      exact (Leads.acceptFalse (.cons (by decide))).bind .refl
    | cons next indices =>
      simp only [List.map_cons, listTokens_cons, List.length_append, List.length_cons, List.append_assoc,
        List.cons_append] at enough ⊢
      have others := ih (List.cons_ne_nil _ _)
        (fun index member => bare index (List.mem_cons_of_mem _ member))
        (fun index member => plain index (List.mem_cons_of_mem _ member))
        (fun index member => read index (List.mem_cons_of_mem _ member))
        (by simp only [List.map_cons]; omega) (Nat.le_of_succ_le_succ steps)
      refine (here.sees (by decide)).bind ?_
      refine (Leads.slot (here.ends (by decide) _)).bind ?_
      refine (readHere bound _ (by omega) (.cons (by decide))).bind ?_
      exact Leads.acceptMark.bind (others.bind .refl)

theorem Kind.isAccessor_apart (kind : Kind) (accepted : kind.isAccessor = true) :
    kind.continuesOwner = false ∧ decide (kind = .symbol .dot) = false := by
  unfold isAccessor at accepted
  split at accepted <;> first | cases accepted; done | decide

theorem tokens_access (collection : Expr) (accessor : Token) (indices : List (Trivia × Expr)) :
    (Expr.access collection accessor indices []).tokens = collection.tokens ++
      accessor :: (listTokens (indices.map Prod.snd) ++ [.ofKind (.symbol .rightBracket)]) := by
  have pieces : Expr.indexPieces indices = (indices.map Prod.snd).map Expr.pieces := by
    rw [Expr.indexPieces_eq_map, List.map_map]
    rfl
  simp [Expr.tokens, Expr.pieces, pieces, listTokens]

theorem reachedBy_access {collection : Expr} {accessor : Token} {indices : List (Trivia × Expr)}
    (owner : ReachedBy Parse.call accesses Kind.continuesOwner collection)
    (accepted : accessor.kind.isAccessor = true) (nonempty : indices ≠ [])
    (bare : ∀ index ∈ indices, index.1 = []) (plain : ∀ index ∈ indices, Plain .assignment index.2)
    (read : ∀ index ∈ indices, ReadBy Parse.expression Kind.continuesAssignment index.2) :
    ReachedBy Parse.call accesses Kind.continuesOwner (.access collection accessor indices []) := by
  intro bound rest enough ends
  rw [tokens_access] at enough ⊢
  simp only [List.length_append, List.length_cons, List.length_nil] at enough ⊢
  obtain ⟨bound, rfl⟩ := Nat.exists_eq_add_one.mpr (show 0 < bound by omega)
  have apart := Kind.isAccessor_apart accessor.kind accepted
  obtain ⟨left, steps, reached⟩ := owner (bound + 1)
    (accessor :: (listTokens (indices.map Prod.snd) ++ .ofKind (.symbol .rightBracket) :: rest))
    (by omega) (.cons apart.1)
  obtain ⟨left, rfl⟩ := Nat.exists_eq_add_one.mpr (show 0 < left by omega)
  refine ⟨left, by omega, ?_⟩
  rw [List.append_assoc, List.cons_append, List.append_assoc]
  refine reached.trans ?_
  refine (Leads.seesFalse (.cons apart.2)).bind ?_
  refine (Leads.seesTrue accepted).bind ?_
  refine (Leads.advance accessor).bind ?_
  have fewer := length_le_listTokens plain
  have room : indices.length ≤ (Rules.upTo (bound + 1)).bound := by
    rw [Rules.bound_upTo]
    omega
  have short : (listTokens (indices.map Prod.snd)).length ≤ bound + 1 := by omega
  refine (leads_indices nonempty bare plain read short room).bind ?_
  exact Leads.acceptMark.bind ((Leads.slot ends.visible).bind .refl)

theorem leads_accesses {rules : Rules} (ends : Ends Kind.continuesCall rest) (left : Nat) :
    Leads (accesses rules left expr) (pure expr) rest rest := by
  cases left with
  | zero => exact .refl
  | succ left =>
    refine (Leads.seesFalse (ends.or_right.or_left)).bind ?_
    exact (Leads.seesFalse (ends.or_right.or_right)).bind .refl

theorem readBy_owned (owner : ReachedBy Parse.call accesses Kind.continuesOwner expr) :
    ReadBy Parse.call Kind.continuesCall expr := by
  intro bound rest enough ends
  obtain ⟨left, _, reached⟩ := owner bound rest enough ends.owner
  exact reached.trans (leads_accesses ends left)

theorem tokens_dotted (owner member : Expr) : (Expr.dotted owner [] member []).tokens =
    owner.tokens ++ .ofKind (.symbol .dot) :: member.tokens := by
  simp [Expr.tokens, Expr.pieces]

theorem readBy_dotted {owner member : Expr} (plain : Plain .call member)
    (reached : ReachedBy Parse.call accesses Kind.continuesOwner owner)
    (read : ReadBy Parse.call Kind.continuesCall member) :
    ReadBy Parse.call Kind.continuesCall (.dotted owner [] member []) := by
  intro bound rest enough ends
  have nonempty := plain.length_tokens
  rw [tokens_dotted] at enough ⊢
  simp only [List.length_append, List.length_cons] at enough
  obtain ⟨bound, rfl⟩ := Nat.exists_eq_add_one.mpr (show 0 < bound by omega)
  obtain ⟨left, steps, reached⟩ := reached (bound + 1) (.ofKind (.symbol .dot) :: (member.tokens ++ rest))
    (by omega) (.cons (by decide))
  obtain ⟨left, rfl⟩ := Nat.exists_eq_add_one.mpr (show 0 < left by omega)
  rw [List.append_assoc, List.cons_append]
  refine reached.trans ?_
  refine (Leads.seesTrue (by decide)).bind ?_
  refine (Leads.advance _).bind ?_
  refine (Leads.slot (plain.ends (by decide) _)).bind ?_
  refine (read bound rest (by omega) ends).bind ?_
  refine (Leads.slot ends.owner.visible).bind ?_
  exact leads_accesses ends left

theorem readBy_called (read : ReadBy Parse.call Kind.continuesCall expr) :
    ReadBy stepped Kind.continuesOperand expr := by
  intro bound rest enough ends
  refine (read bound rest enough ends.call).bind ?_
  exact (Leads.checkFalse ends.or_right).bind .refl

theorem tokens_step (operand : Expr) (operator : Token) :
    (Expr.step operand operator []).tokens = operand.tokens ++ [operator] := by
  simp [Expr.tokens, Expr.pieces]

theorem readBy_step {operand : Expr} {operator : Token}
    (read : ReadBy Parse.call Kind.continuesCall operand) (accepted : operator.kind.isStep = true) :
    ReadBy stepped Kind.continuesOperand (.step operand operator []) := by
  intro bound rest enough ends
  rw [tokens_step] at enough ⊢
  rw [List.length_append] at enough
  have apart : operator.kind.continuesCall = false := by
    generalize operator.kind = kind at accepted
    unfold Kind.isStep at accepted
    split at accepted <;> first | cases accepted; done | decide
  rw [List.append_assoc]
  refine (read bound _ (by omega) (.cons apart)).bind ?_
  refine (Leads.checkTrue accepted).bind ?_
  refine (Leads.advance operator).bind ?_
  exact (Leads.slot ends.call.owner.visible).bind .refl

theorem readBy_stepped (plain : Plain .stepped expr) (read : ReadBy stepped Kind.continuesOperand expr) :
    ReadBy Parse.unary Kind.continuesOperand expr := by
  intro bound rest enough ends
  have unsigned : Ends Kind.isUnary (expr.tokens ++ rest) := by
    obtain ⟨first, others, shape, ⟨operand, _⟩ | ⟨_, none⟩⟩ := plain.exists_tokens
    · rw [shape]
      refine .cons ?_
      generalize first.kind = kind at operand
      unfold Kind.opensOperand at operand
      split at operand <;> first | cases operand; done | rfl
    · exact none.elim
  exact (Leads.checkFalse unsigned).bind (read bound rest enough ends)

theorem tokens_unary (operator : Token) (operand : Expr) :
    (Expr.unary operator [] operand).tokens = operator :: operand.tokens := by
  simp [Expr.tokens, Expr.pieces]

theorem readBy_unary {operator : Token} {operand : Expr} (accepted : operator.kind.isUnary = true)
    (plain : Plain .unary operand) (read : ReadBy Parse.unary Kind.continuesOperand operand) :
    ReadBy Parse.unary Kind.continuesOperand (.unary operator [] operand) := by
  intro bound rest enough ends
  have nonempty := plain.length_tokens
  rw [tokens_unary] at enough ⊢
  rw [List.length_cons] at enough
  obtain ⟨bound, rfl⟩ := Nat.exists_eq_add_one.mpr (show 0 < bound by omega)
  refine (Leads.checkTrue accepted).bind ?_
  refine (Leads.advance operator).bind ?_
  refine (Leads.slot (plain.ends (by decide) rest)).bind ?_
  exact (read bound rest (by omega) ends).bind .refl

end

section

variable {tier : Tier} {tighter : List Tier} {expr left right : Expr} {operator : Token}
  {rest : List Token}

theorem continuesTiers_of_joins (known : tier :: tighter <:+ Tier.all) (kind : Kind)
    (joins : tier.joins kind = true) : kind.continuesTiers tighter = false := by
  simp only [Tier.all, List.suffix_cons_iff, List.cons.injEq, List.suffix_nil, reduceCtorEq, or_false]
    at known
  obtain ⟨rfl, rfl⟩ | ⟨rfl, rfl⟩ | ⟨rfl, rfl⟩ | ⟨rfl, rfl⟩ | ⟨rfl, rfl⟩ | ⟨rfl, rfl⟩ | ⟨rfl, rfl⟩ |
    ⟨rfl, rfl⟩ | ⟨rfl, rfl⟩ := known
  all_goals
    simp only [Tier.disjunction, Tier.conjunction, Tier.exclusion, Tier.equality, Tier.comparison,
      Tier.bitwise, Tier.shift, Tier.additive, Tier.multiplicative] at joins
    split at joins <;> first | cases joins; done | decide

theorem leads_chain {operand : Parse Expr} (ends : Ends tier.joins rest) (count : Nat) :
    Leads (chain operand tier.joins count expr) (pure expr) rest rest := by
  cases count with
  | zero => exact .refl
  | succ count => exact (Leads.seesFalse ends).bind .refl

theorem Strength.Read.tiers {tiers : List Tier} (read : (Strength.tiers tiers).Read expr) :
    ReadBy (Parse.binary · tiers) (Kind.continuesTiers tiers) expr := by
  cases tiers with
  | nil => exact read
  | cons tier tighter =>
    cases side : tier.side with
    | left =>
      simp only [Strength.Read, side] at read
      intro bound rest enough ends
      obtain ⟨count, _, reached⟩ := read bound rest enough ends.tighter
      exact reached.trans (leads_chain ends.unjoined count)
    | right =>
      simp only [Strength.Read, side] at read
      exact read

theorem read_tighter (nonempty : 0 < expr.tokens.length) (read : (Strength.tiers tighter).Read expr) :
    (Strength.tiers (tier :: tighter)).Read expr := by
  cases side : tier.side with
  | left =>
    simp only [Strength.Read, side]
    intro bound rest enough ends
    refine ⟨(Rules.upTo bound).bound, by rw [Rules.bound_upTo]; omega, ?_⟩
    refine (read.tiers bound rest enough ends).bind ?_
    simp only [side]
    exact .refl
  | right =>
    simp only [Strength.Read, side]
    intro bound rest enough ends
    refine (read.tiers bound rest enough ends.tighter).bind ?_
    simp only [side]
    exact (Leads.checkFalse ends.unjoined).bind .refl

theorem tokens_binary (left right : Expr) (operator : Token) :
    (Expr.binary left operator [] right).tokens = left.tokens ++ operator :: right.tokens := by
  simp [Expr.tokens, Expr.pieces]

theorem read_leftward (known : tier :: tighter <:+ Tier.all) (side : tier.side = .left)
    (joins : tier.joins operator.kind = true) (rightPlain : Plain (.tiers tighter) right)
    (leftRead : (Strength.tiers (tier :: tighter)).Read left)
    (rightRead : (Strength.tiers tighter).Read right) :
    (Strength.tiers (tier :: tighter)).Read (.binary left operator [] right) := by
  simp only [Strength.Read, side] at leftRead ⊢
  intro bound rest enough ends
  have nonempty := rightPlain.length_tokens
  rw [tokens_binary] at enough ⊢
  simp only [List.length_append, List.length_cons] at enough ⊢
  obtain ⟨bound, rfl⟩ := Nat.exists_eq_add_one.mpr (show 0 < bound by omega)
  obtain ⟨count, steps, reached⟩ := leftRead (bound + 1) (operator :: (right.tokens ++ rest)) (by omega)
    (.cons (continuesTiers_of_joins known _ joins))
  obtain ⟨count, rfl⟩ := Nat.exists_eq_add_one.mpr (show 0 < count by omega)
  refine ⟨count, by omega, ?_⟩
  rw [List.append_assoc, List.cons_append]
  refine reached.trans ?_
  refine (Leads.seesTrue joins).bind ?_
  refine (Leads.advance operator).bind ?_
  refine (Leads.slot (rightPlain.ends (by decide) rest)).bind ?_
  exact (rightRead.tiers bound rest (by omega) ends).bind .refl

theorem read_rightward (known : tier :: tighter <:+ Tier.all) (side : tier.side = .right)
    (joins : tier.joins operator.kind = true) (rightPlain : Plain (.tiers (tier :: tighter)) right)
    (leftRead : (Strength.tiers tighter).Read left)
    (rightRead : (Strength.tiers (tier :: tighter)).Read right) :
    (Strength.tiers (tier :: tighter)).Read (.binary left operator [] right) := by
  simp only [Strength.Read, side]
  intro bound rest enough ends
  have nonempty := rightPlain.length_tokens
  rw [tokens_binary] at enough ⊢
  simp only [List.length_append, List.length_cons] at enough
  obtain ⟨bound, rfl⟩ := Nat.exists_eq_add_one.mpr (show 0 < bound by omega)
  have apart := continuesTiers_of_joins known _ joins
  rw [List.append_assoc, List.cons_append]
  refine (leftRead.tiers (bound + 1) _ (by omega) (.cons apart)).bind ?_
  simp only [side]
  refine (Leads.checkTrue joins).bind ?_
  refine (Leads.advance operator).bind ?_
  refine (Leads.slot (rightPlain.ends (by decide) rest)).bind ?_
  exact (rightRead.tiers bound rest (by omega) ends).bind .refl

end

section

variable {expr : Expr}

theorem readBy_binary (read : (Strength.tiers Tier.all).Read expr) :
    ReadBy Parse.ternary Kind.continuesTernary expr := by
  intro bound rest enough ends
  refine (read.tiers bound rest enough ends.tiers).bind ?_
  exact (Leads.acceptFalse ends.or_right).bind .refl

theorem tokens_ternary (condition whenTrue whenFalse : Expr) :
    (Expr.ternary condition [] whenTrue [] whenFalse).tokens = condition.tokens ++
      .ofKind (.symbol .hook) :: (whenTrue.tokens ++ .ofKind (.symbol .colon) :: whenFalse.tokens) := by
  simp [Expr.tokens, Expr.pieces]

theorem readBy_ternary {condition whenTrue whenFalse : Expr} (truePlain : Plain .ternary whenTrue)
    (falsePlain : Plain .ternary whenFalse) (conditionRead : (Strength.tiers Tier.all).Read condition)
    (trueRead : ReadBy Parse.ternary Kind.continuesTernary whenTrue)
    (falseRead : ReadBy Parse.ternary Kind.continuesTernary whenFalse) :
    ReadBy Parse.ternary Kind.continuesTernary (.ternary condition [] whenTrue [] whenFalse) := by
  intro bound rest enough ends
  rw [tokens_ternary] at enough ⊢
  simp only [List.length_append, List.length_cons] at enough
  obtain ⟨bound, rfl⟩ := Nat.exists_eq_add_one.mpr (show 0 < bound by omega)
  rw [List.append_assoc, List.cons_append, List.append_assoc, List.cons_append]
  refine (conditionRead.tiers (bound + 1) _ (by omega) (.cons (by decide))).bind ?_
  refine Leads.acceptMark.bind ?_
  refine (Leads.slot (truePlain.ends (by decide) _)).bind ?_
  refine (trueRead bound _ (by omega) (.cons (by decide))).bind ?_
  refine Leads.acceptMark.bind ?_
  refine (Leads.slot (falsePlain.ends (by decide) rest)).bind ?_
  exact (falseRead bound rest (by omega) ends).bind .refl

theorem completed_eq (plain : Plain .ternary expr) (rules : Rules) : completed rules expr = pure expr := by
  obtain ⟨first, last, woven⟩ := plain.woven
  cases expr with
  | unidentified token trailing =>
    have nothing := woven.weave.head
    cases nothing
  | _ => rfl

theorem readBy_value (plain : Plain .ternary expr)
    (read : ReadBy Parse.ternary Kind.continuesTernary expr) :
    ReadBy Parse.assignment Kind.continuesAssignment expr := by
  intro bound rest enough ends
  refine (read bound rest enough ends.ternary).bind ?_
  rw [completed_eq plain]
  exact Leads.bind .refl ((Leads.checkFalse ends.or_right).bind .refl)

theorem tokens_assign (target value : Expr) (operator : Token) :
    (Expr.assign target operator [] value).tokens = target.tokens ++ operator :: value.tokens := by
  simp [Expr.tokens, Expr.pieces]

theorem readBy_assign {target value : Expr} {operator : Token} (targetPlain : Plain .ternary target)
    (accepted : operator.kind.isAssignment = true) (valuePlain : Plain .assignment value)
    (targetRead : ReadBy Parse.ternary Kind.continuesTernary target)
    (valueRead : ReadBy Parse.assignment Kind.continuesAssignment value) :
    ReadBy Parse.assignment Kind.continuesAssignment (.assign target operator [] value) := by
  intro bound rest enough ends
  have nonempty := valuePlain.length_tokens
  rw [tokens_assign] at enough ⊢
  simp only [List.length_append, List.length_cons] at enough
  obtain ⟨bound, rfl⟩ := Nat.exists_eq_add_one.mpr (show 0 < bound by omega)
  have apart : operator.kind.continuesTernary = false := by
    generalize operator.kind = kind at accepted
    unfold Kind.isAssignment at accepted
    split at accepted <;> first | cases accepted; done | decide
  rw [List.append_assoc, List.cons_append]
  refine (targetRead (bound + 1) _ (by omega) (.cons apart)).bind ?_
  rw [completed_eq targetPlain]
  refine Leads.bind .refl ?_
  refine (Leads.checkTrue accepted).bind ?_
  refine (Leads.advance operator).bind ?_
  refine (Leads.slot (valuePlain.ends (by decide) rest)).bind ?_
  exact (valueRead bound rest (by omega) ends).bind .refl

end

theorem Plain.read {strength : Strength} {expr : Expr} (plain : Plain strength expr) :
    strength.Read expr := by
  induction plain with
  | identifier name => exact reachedBy_primary (Nat.succ_pos _) (readBy_identifier name.1)
  | literal isLiteral =>
    exact reachedBy_primary (Nat.succ_pos _) (readBy_literal (isLiteral.2.imp_right And.left))
  | grouping plain ih =>
    have read := readBy_grouping plain (ReadBy.expression ih)
    exact reachedBy_primary (Plain.grouping plain).length_tokens read
  | array bare plain ih =>
    have read := readBy_array bare plain fun item member => ReadBy.expression (ih item member)
    exact reachedBy_primary (Plain.array bare plain).length_tokens read
  | call name bare plain ih =>
    exact reachedBy_call name.1 bare plain fun item member => ReadBy.expression (ih item member)
  | access owner operator nonempty bare plain ihOwner ih =>
    exact reachedBy_access ihOwner operator.1 nonempty bare plain fun index member =>
      ReadBy.expression (ih index member)
  | owned plain ih => exact readBy_owned ih
  | dotted plain owns named starts ihOwner ihMember => exact readBy_dotted named ihOwner ihMember
  | called plain ih => exact readBy_called ih
  | step plain isStep ih => exact readBy_step ih isStep.1
  | stepped plain ih => exact readBy_stepped plain ih
  | unary isUnary plain apart ih => exact readBy_unary isUnary.1 plain ih
  | operand plain ih =>
    intro bound rest enough ends
    exact ih bound rest enough ends.operand
  | tighter plain ih => exact read_tighter plain.length_tokens ih
  | leftward known side leftPlain joins rightPlain ihLeft ihRight =>
    exact read_leftward known side joins.1 rightPlain ihLeft ihRight
  | rightward known side leftPlain joins rightPlain ihLeft ihRight =>
    exact read_rightward known side joins.1 rightPlain ihLeft ihRight
  | binary plain ih => exact readBy_binary ih
  | ternary conditionPlain truePlain falsePlain ihCondition ihTrue ihFalse =>
    exact readBy_ternary truePlain falsePlain ihCondition ihTrue ihFalse
  | value plain ih => exact readBy_value plain ih
  | assign targetPlain isAssignment valuePlain ihTarget ihValue =>
    exact readBy_assign targetPlain isAssignment.1 valuePlain ihTarget ihValue

end GmlLayout
