import GmlLayout.Grammar.Tier
import GmlLayout.Proofs.Token.Weave
import GmlLayout.Proofs.Tree.MapTokens

/-!
Plain expressions: without trivia, and nested as strongly as their operators bind. They are made of
names, literals, groupings, calls of names, accesses, arrays and operators. The pieces of a plain
expression are the tokens and spaces that it is written with.
-/

namespace GmlLayout

open Munch

def Token.IsOperator (token : Token) (accepted : Kind → Bool) : Prop :=
  accepted token.kind = true ∧ token.payload = .none

def Token.IsName (token : Token) : Prop :=
  token.kind = .identifier ∧ token.IsRead

namespace Expr

def opening : Expr → Option Kind
  | .call callee _ _ _ => callee.opening
  | .function .. => some (.keyword .functionWord)
  | .binary left _ _ _ => left.opening
  | .grouping .. => some (.symbol .leftParen)
  | .array .. => some (.symbol .leftBracket)
  | .step operand _ _ => operand.opening
  | .assign target _ _ _ => target.opening
  | .dotted owner _ _ _ => owner.opening
  | .access collection _ _ _ => collection.opening
  | .ternary condition _ _ _ _ => condition.opening
  | .literal token _ | .identifier token _ | .numberStartDot token _ => some token.kind
  | .numberEndDot token _ => some token.kind
  | .unary token _ _ | .lifetime token _ _ _ | .unidentified token _ => some token.kind
  | .lineComment token | .blockComment token => some token.kind
  | .newline => some .newline

def isUnary : Expr → Bool
  | .unary .. => true
  | _ => false

def ownsMembers : Expr → Bool
  | .identifier .. | .call .. | .grouping .. | .access .. => true
  | _ => false

end Expr

/-- How strongly an expression holds together; `tiers` are the binary operators that it may have outside
of brackets. -/
inductive Strength where
  | owner
  | call
  | stepped
  | unary
  | tiers (tiers : List Tier)
  | ternary
  | assignment

def Kind.isNegation : Kind → Bool
  | .symbol .bang | .symbol .tilde | .keyword .notWord => true
  | _ => false

/-- Plain expressions that hold together at least as strongly as the strength says. -/
inductive Plain : Strength → Expr → Prop where
  | identifier {token : Token} (name : token.IsName) : Plain .owner (.identifier token [])
  | literal {token : Token} (isLiteral : token.IsLiteral) : Plain .owner (.literal token [])
  | grouping {inner : Expr} (plain : Plain .assignment inner) : Plain .owner (.grouping [] [inner] [])
  | array {elements : List (Item Expr)} (bare : ∀ item ∈ elements, item.trailing = [])
      (plain : ∀ item ∈ elements, Plain .assignment item.value) :
      Plain .owner (.array [] ⟨elements, elements.isEmpty⟩)
  | call {callee : Token} {arguments : List (Item Expr)} (name : callee.IsName)
      (bare : ∀ item ∈ arguments, item.trailing = [])
      (plain : ∀ item ∈ arguments, Plain .assignment item.value) :
      Plain .owner (.call (.identifier callee []) [] ⟨arguments, arguments.isEmpty⟩ [])
  | access {collection : Expr} {accessor : Token} {indices : List (Trivia × Expr)}
      (owner : Plain .owner collection) (operator : accessor.IsOperator Kind.isAccessor)
      (nonempty : indices ≠ []) (bare : ∀ index ∈ indices, index.1 = [])
      (plain : ∀ index ∈ indices, Plain .assignment index.2) :
      Plain .owner (.access collection accessor indices [])
  | owned {expr : Expr} (plain : Plain .owner expr) : Plain .call expr
  | dotted {owner member : Expr} (plain : Plain .owner owner) (owns : owner.ownsMembers = true)
      (named : Plain .call member) (starts : member.opening = some .identifier) :
      Plain .call (.dotted owner [] member [])
  | called {expr : Expr} (plain : Plain .call expr) : Plain .stepped expr
  | step {operand : Expr} {operator : Token} (plain : Plain .call operand)
      (isStep : operator.IsOperator Kind.isStep) : Plain .stepped (.step operand operator [])
  | stepped {expr : Expr} (plain : Plain .stepped expr) : Plain .unary expr
  | unary {operator : Token} {operand : Expr} (isUnary : operator.IsOperator Kind.isUnary)
      (plain : Plain .unary operand)
      (apart : operand.isUnary = true → operator.kind.isNegation = true) :
      Plain .unary (.unary operator [] operand)
  | operand {expr : Expr} (plain : Plain .unary expr) : Plain (.tiers []) expr
  | tighter {expr : Expr} {tier : Tier} {tighter : List Tier} (plain : Plain (.tiers tighter) expr) :
      Plain (.tiers (tier :: tighter)) expr
  | leftward {left right : Expr} {operator : Token} {tier : Tier} {tighter : List Tier}
      (known : tier :: tighter <:+ Tier.all) (side : tier.side = .left)
      (leftPlain : Plain (.tiers (tier :: tighter)) left) (joins : operator.IsOperator tier.joins)
      (rightPlain : Plain (.tiers tighter) right) :
      Plain (.tiers (tier :: tighter)) (.binary left operator [] right)
  | rightward {left right : Expr} {operator : Token} {tier : Tier} {tighter : List Tier}
      (known : tier :: tighter <:+ Tier.all) (side : tier.side = .right)
      (leftPlain : Plain (.tiers tighter) left) (joins : operator.IsOperator tier.joins)
      (rightPlain : Plain (.tiers (tier :: tighter)) right) :
      Plain (.tiers (tier :: tighter)) (.binary left operator [] right)
  | binary {expr : Expr} (plain : Plain (.tiers Tier.all) expr) : Plain .ternary expr
  | ternary {condition whenTrue whenFalse : Expr} (conditionPlain : Plain (.tiers Tier.all) condition)
      (truePlain : Plain .ternary whenTrue) (falsePlain : Plain .ternary whenFalse) :
      Plain .ternary (.ternary condition [] whenTrue [] whenFalse)
  | value {expr : Expr} (plain : Plain .ternary expr) : Plain .assignment expr
  | assign {target value : Expr} {operator : Token} (targetPlain : Plain .ternary target)
      (isAssignment : operator.IsOperator Kind.isAssignment) (valuePlain : Plain .assignment value) :
      Plain .assignment (.assign target operator [] value)

namespace Plain

variable {expr : Expr}

theorem tiers_of_unary (plain : Plain .unary expr) (tiers : List Tier) : Plain (.tiers tiers) expr := by
  induction tiers with
  | nil => exact .operand plain
  | cons tier tighter ih => exact .tighter ih

theorem ternary_of_unary (plain : Plain .unary expr) : Plain .ternary expr :=
  .binary (plain.tiers_of_unary Tier.all)

theorem unary_of_owner (plain : Plain .owner expr) : Plain .unary expr :=
  .stepped (.called (.owned plain))

end Plain

def Piece.mark (symbol : Symbol) : Piece :=
  some (.ofKind (.symbol symbol))

def Piece.gap (spaced : Bool) : List Piece :=
  if spaced then [none] else []

@[simp] theorem Piece.gap_true : gap true = [none] := rfl

@[simp] theorem Piece.gap_false : gap false = [] := rfl

open Piece (mark gap)

def separated : List (List Piece) → List Piece
  | [] => []
  | [only] => only
  | first :: others => first ++ [mark .comma, none] ++ separated others

namespace Expr

@[simp] def spaced : Expr → Bool
  | .array .. => false
  | .unary _ _ operand => operand.spaced
  | .binary _ _ _ right => right.spaced
  | .assign _ _ _ value => value.spaced
  | .dotted _ _ member _ => member.spaced
  | .ternary _ _ _ _ whenFalse => whenFalse.spaced
  | _ => true

mutual

def pieces : Expr → List Piece
  | .identifier token _ | .literal token _ => [some token]
  | .grouping _ [inner] _ => mark .leftParen :: inner.pieces ++ [mark .rightParen]
  | .array _ ⟨elements, _⟩ => mark .leftBracket :: separated (itemPieces elements) ++ [mark .rightBracket]
  | .call callee _ ⟨arguments, _⟩ _ =>
    callee.pieces ++ mark .leftParen :: separated (itemPieces arguments) ++ [mark .rightParen]
  | .access collection accessor indices _ =>
    collection.pieces ++ some accessor :: gap (accessor.kind ≠ .symbol .leftBracket)
      ++ separated (indexPieces indices) ++ [mark .rightBracket]
  | .dotted owner _ member _ => owner.pieces ++ mark .dot :: member.pieces
  | .step operand operator _ => operand.pieces ++ [some operator]
  | .unary operator _ operand =>
    some operator :: gap (operator.kind = .keyword .notWord) ++ operand.pieces
  | .binary left operator _ right => left.pieces ++ none :: some operator :: none :: right.pieces
  | .ternary condition _ whenTrue _ whenFalse =>
    condition.pieces ++ gap condition.spaced ++ mark .hook :: none :: whenTrue.pieces
      ++ gap whenTrue.spaced ++ mark .colon :: none :: whenFalse.pieces
  | .assign target operator _ value =>
    target.pieces ++ gap target.spaced ++ some operator :: none :: value.pieces
  | _ => []

def itemPieces : List (Item Expr) → List (List Piece)
  | [] => []
  | ⟨value, _⟩ :: others => value.pieces :: itemPieces others

def indexPieces : List (Trivia × Expr) → List (List Piece)
  | [] => []
  | (_, index) :: others => index.pieces :: indexPieces others

end

theorem itemPieces_eq_map (items : List (Item Expr)) : itemPieces items = items.map (·.value.pieces) := by
  induction items with
  | nil => rfl
  | cons item items ih => rw [itemPieces, ih, List.map_cons]

theorem indexPieces_eq_map (indices : List (Trivia × Expr)) :
    indexPieces indices = indices.map (·.2.pieces) := by
  induction indices with
  | nil => rfl
  | cons index indices ih => rw [indexPieces, ih, List.map_cons]

end Expr

def separator : Nat → List Piece
  | 0 => [none]
  | breaks + 1 => List.replicate (breaks + 1) (some .lineBreak)

/-- What is written for an expression that is a statement, with line breaks behind it or none. -/
def Expr.statementPieces (expr : Expr) (breaks : Nat) : List Piece :=
  expr.pieces ++ mark .semicolon :: separator breaks

/-- The pieces of a program of plain expressions, each with the number of line breaks behind it. -/
def programPieces : List (Expr × Nat) → List Piece
  | [] => []
  | [(expr, _)] => expr.pieces ++ [mark .semicolon]
  | (expr, breaks) :: others => expr.statementPieces breaks ++ programPieces others

/-- What the first character of an expression can be, unless it is an operator. -/
def isOperandStart (c : Char) : Bool :=
  isWordChar c || ['$', '"', '\'', '(', '['].contains c

def isExpressionStart (c : Char) : Bool :=
  isOperandStart c || ['!', '-', '+', '~'].contains c

theorem joins_operandStart {first c : Char} (noPoint : first = '.' → c.isDigit = false) (noAt : first ≠ '@')
    (starts : isOperandStart c = true) : joins first c = false := by
  have unpaired : symbol? [first, c] = none := by
    have seconds : ∀ mark : Symbol, mark.text.toList.tail.all (fun c => !isOperandStart c) = true := by
      intro mark
      cases mark <;> decide
    apply List.find?_eq_none.mpr
    intro mark _ spelt
    have tail := seconds mark
    rw [of_decide_eq_true spelt] at tail
    simp [starts] at tail
  have noComment : (c == '/' || c == '*') = false := by
    cases found : c == '/' || c == '*' with
    | false => rfl
    | true =>
      simp only [Bool.or_eq_true, beq_iff_eq] at found
      obtain rfl | rfl := found <;> exact absurd starts (by decide)
  have noFraction : (first == '.' && c.isDigit) = false := by
    cases point : first == '.' with
    | false => rfl
    | true => exact noPoint (beq_iff_eq.mp point)
  simp [joins, unpaired, noFraction, noAt, noComment]

theorem isDigit_of_isWordStart {c : Char} (starts : isWordStart c = true) : c.isDigit = false := by
  rw [Bool.eq_false_iff]
  intro digit
  rw [isWordStart_of_isDigit digit] at starts
  cases starts

theorem isOperandStart_of_isWordStart {c : Char} (starts : isWordStart c = true) :
    isOperandStart c = true := by
  rw [isOperandStart, isWordChar, starts, Bool.true_or, Bool.true_or]

namespace Kind

def opensOperand : Kind → Bool
  | .identifier | .number | .string | .symbol .leftParen | .symbol .leftBracket => true
  | _ => false

def closesPlain : Kind → Bool
  | .identifier | .number | .string => true
  | .symbol .rightParen | .symbol .rightBracket | .symbol .increment | .symbol .decrement => true
  | _ => false

def IsSpelt (kind : Kind) : Prop :=
  (∃ symbol, kind = .symbol symbol ∧ symbol ≠ .hash) ∨ ∃ word, kind = .keyword word

theorem isSpelt_symbol {symbol : Symbol} (known : symbol ≠ .hash) : IsSpelt (.symbol symbol) :=
  .inl ⟨symbol, rfl, known⟩

theorem isSpelt_of_isUnary (kind : Kind) (accepted : kind.isUnary = true) : kind.IsSpelt := by
  unfold isUnary at accepted
  split at accepted <;> first
    | exact isSpelt_symbol (by decide)
    | exact .inr ⟨_, rfl⟩
    | cases accepted

theorem isSpelt_of_isStep (kind : Kind) (accepted : kind.isStep = true) :
    ∃ symbol, kind = .symbol symbol ∧ symbol ≠ .hash ∧ symbol ≠ .dot ∧ kind.closesPlain = true := by
  unfold isStep at accepted
  split at accepted <;> first
    | exact ⟨_, rfl, by decide, by decide, rfl⟩
    | cases accepted

theorem isSpelt_of_isAssignment (kind : Kind) (accepted : kind.isAssignment = true) :
    ∃ symbol, kind = .symbol symbol ∧ symbol ≠ .hash ∧ symbol ≠ .dot := by
  unfold isAssignment at accepted
  split at accepted <;> first
    | exact ⟨_, rfl, by decide, by decide⟩
    | cases accepted

theorem isSpelt_of_isAccessor (kind : Kind) (accepted : kind.isAccessor = true) :
    ∃ symbol, kind = .symbol symbol ∧ symbol ≠ .hash ∧ symbol ≠ .dot := by
  unfold isAccessor at accepted
  split at accepted <;> first
    | exact ⟨_, rfl, by decide, by decide⟩
    | cases accepted

theorem isSpelt_of_joins {tier : Tier} (member : tier ∈ Tier.all) (kind : Kind)
    (accepted : tier.joins kind = true) : kind.IsSpelt := by
  simp only [Tier.all, List.mem_cons, List.not_mem_nil, or_false] at member
  obtain rfl | rfl | rfl | rfl | rfl | rfl | rfl | rfl | rfl := member
  all_goals
    simp only [Tier.disjunction, Tier.conjunction, Tier.exclusion, Tier.equality, Tier.comparison,
      Tier.bitwise, Tier.shift, Tier.additive, Tier.multiplicative] at accepted
    split at accepted <;> first
      | exact isSpelt_symbol (by decide)
      | exact .inr ⟨_, rfl⟩
      | cases accepted

end Kind

namespace Token

variable {token next : Token}

def OpensOperand (token : Token) : Prop :=
  token.kind.opensOperand = true ∧ token.Starts isOperandStart

def OpensPlain (token : Token) : Prop :=
  token.OpensOperand ∨ token.IsOperator Kind.isUnary

theorem starts_of_fixed {inClass : Char → Bool} (fixed : token.payload = .none)
    (starts : token.kind.fixedText.toList.head?.any inClass = true) : token.Starts inClass := by
  rw [Starts, lexeme_of_fixed fixed]
  exact starts

theorem Starts.weaken {inClass other : Char → Bool} (starts : token.Starts inClass)
    (within : ∀ c, inClass c = true → other c = true) : token.Starts other := by
  unfold Starts at starts ⊢
  revert starts
  cases token.lexeme.toList.head? with
  | none => exact id
  | some c => exact within c

theorem Spelled.starts_word (spelled : token.Spelled) (isName : token.kind = .identifier) :
    token.Starts isWordStart := by
  have cut := spelled.cut [] .nil
  rw [isName] at cut
  unfold Starts
  generalize kindEq : Kind.identifier = kind at cut
  generalize token.lexeme.toList = text at cut ⊢
  cases cut with
  | word starts inside stops => exact starts
  | _ => cases kindEq

theorem IsName.opensOperand (name : token.IsName) : token.OpensOperand := by
  refine ⟨by rw [name.1]; rfl, ?_⟩
  exact ((spelled_name name.1 name.2).starts_word name.1).weaken fun c => isOperandStart_of_isWordStart

theorem IsLiteral.opensOperand (literal : token.IsLiteral) : token.OpensOperand := by
  have cut := (spelled_literal literal).cut [] .nil
  have digits : ∀ c : Char, c.isDigit = true → isOperandStart c = true := fun c digit => by
    rw [isOperandStart, isWordChar, digit, Bool.or_true, Bool.true_or]
  obtain ⟨_, isNumber | ⟨isString, _, quoted⟩⟩ := literal
  · refine ⟨by rw [isNumber]; rfl, ?_⟩
    rw [isNumber] at cut
    unfold Starts
    generalize kindEq : Kind.number = kind at cut
    generalize token.lexeme.toList = text at cut ⊢
    cases cut with
    | word starts inside stops => exact absurd kindEq (Cut.wordKind_ne _ (by simp) (by simp))
    | hexadecimal inside stops => rfl
    | color inside stops => rfl
    | whole starts inside stops plain => exact digits _ starts
    | fraction starts inside goesOn within stops => exact digits _ starts
    | _ => cases kindEq
  · refine ⟨by rw [isString]; rfl, ?_⟩
    rw [isString] at cut
    unfold Starts at quoted ⊢
    generalize kindEq : Kind.string = kind at cut
    generalize token.lexeme.toList = text at cut quoted ⊢
    cases cut with
    | word starts inside stops => exact absurd kindEq (Cut.wordKind_ne _ (by simp) (by simp))
    | string quotes ends => obtain rfl | rfl := quotes <;> rfl
    | rawString quotes ends => exact absurd rfl quoted
    | _ => cases kindEq

theorem OpensPlain.starts (opens : token.OpensPlain) : token.Starts isExpressionStart := by
  obtain ⟨_, starts⟩ | ⟨accepted, fixed⟩ := opens
  · exact starts.weaken fun c starts => by rw [isExpressionStart, starts, Bool.true_or]
  · refine starts_of_fixed fixed ?_
    generalize token.kind = kind at accepted
    unfold Kind.isUnary at accepted
    split at accepted <;> first | decide | cases accepted

theorem IsOperator.spelled {accepted : Kind → Bool} (operator : token.IsOperator accepted)
    (spelt : ∀ kind, accepted kind = true → kind.IsSpelt) : token.Spelled := by
  obtain ⟨mark, isMark, known⟩ | ⟨word, isWord⟩ := spelt token.kind operator.1
  · exact spelled_symbol isMark operator.2 known
  · exact spelled_keyword isWord operator.2

theorem spelled_mark {mark : Symbol} (known : mark ≠ .hash) : (ofKind (.symbol mark)).Spelled :=
  spelled_symbol rfl rfl known

/-- Brackets, and operators that another one may follow, leave an expression behind them alone. -/
theorem fits_opensPlain {mark : Symbol} (isMark : token.kind = .symbol mark)
    (apart : mark ∈ [.leftParen, .leftBracket, .bang, .tilde]) (opens : next.OpensPlain) :
    Piece.Fits (some token) (some next) := by
  refine fits_of_starts opens.starts fun c starts => ?_
  rw [isExpressionStart, Bool.or_eq_true] at starts
  have free : ∀ first : Char, mark.text.toList = [first] → token.takesUp c = joins first c := by
    intro first shape
    simp only [takesUp, isMark, shape]
  simp only [List.mem_cons, List.not_mem_nil, or_false] at apart
  obtain starts | starts := starts
  · obtain rfl | rfl | rfl | rfl := apart
    all_goals
      rw [free _ rfl]
      exact joins_operandStart (fun point => absurd point (by decide)) (by decide) starts
  · simp only [List.contains_eq_mem, List.mem_cons, List.not_mem_nil, or_false, decide_eq_true_eq] at starts
    obtain rfl | rfl | rfl | rfl := apart <;> obtain rfl | rfl | rfl | rfl := starts <;>
      rw [free _ rfl] <;> decide

theorem fits_opensOperand (operator : token.IsOperator Kind.isUnary)
    (symbolic : token.kind ≠ .keyword .notWord) (opens : next.OpensOperand) :
    Piece.Fits (some token) (some next) := by
  refine fits_of_starts opens.2 fun c starts => ?_
  have accepted := operator.1
  unfold takesUp
  generalize token.kind = kind at accepted symbolic
  unfold Kind.isUnary at accepted
  split at accepted
  · exact joins_operandStart (fun point => absurd point (by decide)) (by decide) starts
  · exact joins_operandStart (fun point => absurd point (by decide)) (by decide) starts
  · exact joins_operandStart (fun point => absurd point (by decide)) (by decide) starts
  · exact joins_operandStart (fun point => absurd point (by decide)) (by decide) starts
  · rfl
  · rfl
  · exact absurd rfl symbolic
  · cases accepted

theorem fits_point (name : next.Spelled) (isName : next.kind = .identifier) :
    Piece.Fits (some (ofKind (.symbol .dot))) (some next) := by
  refine fits_of_starts (name.starts_word isName) fun c starts => ?_
  have operand := isOperandStart_of_isWordStart starts
  exact joins_operandStart (fun _ => isDigit_of_isWordStart starts) (by decide) operand

/-- Behind the end of an expression a punctuation mark may follow, but no point behind a number. -/
theorem fits_closesPlain (closes : token.kind.closesPlain = true) {mark : Symbol}
    (isMark : next.kind = .symbol mark) (fixed : next.payload = .none)
    (apart : mark = .dot → token.kind ≠ .number) : Piece.Fits (some token) (some next) := by
  have spelling : next.lexeme = mark.text := by
    rw [lexeme_of_fixed fixed, isMark]
    rfl
  intro c member
  have member : next.lexeme.toList.head? = some c := member
  rw [spelling] at member
  unfold takesUp
  generalize token.kind = kind at closes apart
  unfold Kind.closesPlain at closes
  split at closes
  · cases mark <;> cases member <;> decide
  · cases mark
    case dot => exact absurd rfl (apart rfl)
    all_goals cases member; decide
  · rfl
  · cases mark <;> cases member <;> decide
  · cases mark <;> cases member <;> decide
  · rfl
  · rfl
  · cases closes

end Token

end GmlLayout
