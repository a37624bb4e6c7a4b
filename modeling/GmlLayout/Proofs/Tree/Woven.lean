import GmlLayout.Proofs.Tree.Plain

/-!
The pieces of a plain expression are woven into a text: no token takes up the beginning of the next one.
Where two tokens stand side by side, the first one ends an operand or opens a bracket, or it is an
operator in front of its operand.
-/

namespace GmlLayout

open Piece (mark gap)

def Strength.AdmitsOperator : Strength → Expr → Prop
  | .owner, _ | .call, _ | .stepped, _ => False
  | .unary, expr => expr.isUnary = true
  | .tiers _, _ | .ternary, _ | .assignment, _ => True

/-- A plain expression of the strength is woven from its first token to its last one. -/
structure Woven (strength : Strength) (expr : Expr) (first last : Token) : Prop where
  weave : Weave expr.pieces first last
  opening : expr.opening = some first.kind
  opens : first.OpensOperand ∨ first.IsOperator Kind.isUnary ∧ strength.AdmitsOperator expr
  closes : last.kind.closesPlain = true
  numbered : expr.ownsMembers = true → last.kind ≠ .number

namespace Woven

variable {strength looser : Strength} {expr : Expr} {first last : Token}

theorem loosen (woven : Woven strength expr first last)
    (admits : strength.AdmitsOperator expr → looser.AdmitsOperator expr) : Woven looser expr first last :=
  { woven with opens := woven.opens.imp_right (And.imp_right admits) }

theorem opensPlain (woven : Woven strength expr first last) : first.OpensPlain :=
  woven.opens.imp_right And.left

theorem noBreak (woven : Woven strength expr first last) : last.kind ≠ .newline := by
  intro isBreak
  have closes := woven.closes
  rw [isBreak] at closes
  cases closes

theorem join (woven : Woven strength expr first last) {pieces : List Piece} {start stop : Token}
    (back : Weave pieces start stop) {symbol : Symbol} (isMark : start.kind = .symbol symbol)
    (fixed : start.payload = .none) (apart : symbol ≠ .dot) : Weave (expr.pieces ++ pieces) first stop :=
  woven.weave.join back (Token.fits_closesPlain woven.closes isMark fixed fun isDot => absurd isDot apart)

theorem joinGap (woven : Woven strength expr first last) {pieces : List Piece} {start stop : Token}
    (back : Weave pieces start stop) {symbol : Symbol} (isMark : start.kind = .symbol symbol)
    (fixed : start.payload = .none) (apart : symbol ≠ .dot) (spaced : Bool) :
    Weave (expr.pieces ++ (gap spaced ++ pieces)) first stop := by
  cases spaced with
  | false => exact woven.join back isMark fixed apart
  | true => exact woven.weave.space woven.noBreak back

end Woven

theorem weave_mark_space {pieces : List Piece} {token start stop : Token} (spelled : token.Spelled)
    (visible : token.kind ≠ .newline) (back : Weave pieces start stop) :
    Weave (some token :: none :: pieces) token stop :=
  (Weave.single spelled).space visible back

theorem weave_separated {entries : List (List Piece)} (nonempty : entries ≠ [])
    (each : ∀ entry ∈ entries, ∃ expr first last, entry = Expr.pieces expr ∧ Woven .assignment expr first last)
    {closing : Symbol} (known : closing ≠ .hash) (apart : closing ≠ .dot) :
    ∃ first, Weave (separated entries ++ [mark closing]) first (.ofKind (.symbol closing)) ∧
      first.OpensPlain := by
  induction entries with
  | nil => exact absurd rfl nonempty
  | cons entry entries ih =>
    obtain ⟨expr, first, last, rfl, woven⟩ := each entry List.mem_cons_self
    refine ⟨first, ?_, woven.opensPlain⟩
    cases entries with
    | nil => exact woven.join (.single (Token.spelled_mark known)) rfl rfl apart
    | cons next entries =>
      obtain ⟨start, rest, _⟩ := ih (List.cons_ne_nil _ _) fun entry member =>
        each entry (List.mem_cons_of_mem _ member)
      have spelled := Token.spelled_mark (show Symbol.comma ≠ .hash by decide)
      have comma := weave_mark_space spelled (by decide) rest
      have whole := woven.join comma rfl rfl (by decide)
      simpa [separated, mark] using whole

theorem weave_bracketed {entries : List (List Piece)}
    (each : ∀ entry ∈ entries, ∃ expr first last, entry = Expr.pieces expr ∧ Woven .assignment expr first last)
    (opening : Token) {symbol closing : Symbol} (isMark : opening.kind = .symbol symbol)
    (fixed : opening.payload = .none) (brackets : symbol = .leftParen ∧ closing = .rightParen ∨
      symbol = .leftBracket ∧ closing = .rightBracket) :
    Weave (some opening :: (separated entries ++ [mark closing])) opening (.ofKind (.symbol closing)) := by
  have known : symbol ≠ .hash ∧ closing ≠ .hash ∧ closing ≠ .dot := by
    obtain ⟨rfl, rfl⟩ | ⟨rfl, rfl⟩ := brackets <;> decide
  have front : Weave [some opening] opening opening :=
    .single (Token.spelled_symbol isMark fixed known.1)
  cases entries with
  | nil =>
    refine front.join (.single (Token.spelled_mark known.2.1)) fun c member => ?_
    unfold Token.takesUp
    rw [isMark]
    obtain ⟨rfl, rfl⟩ | ⟨rfl, rfl⟩ := brackets <;> cases member <;> decide
  | cons entry entries =>
    obtain ⟨first, rest, opens⟩ := weave_separated (List.cons_ne_nil _ _) each known.2.1 known.2.2
    refine front.join rest (Token.fits_opensPlain isMark ?_ opens)
    obtain ⟨rfl, rfl⟩ | ⟨rfl, rfl⟩ := brackets <;> decide

theorem exists_woven_items {items : List (Item Expr)}
    (each : ∀ item ∈ items, ∃ first last, Woven .assignment item.value first last) :
    ∀ entry ∈ Expr.itemPieces items, ∃ expr first last, entry = Expr.pieces expr ∧
      Woven .assignment expr first last := by
  intro entry member
  rw [Expr.itemPieces_eq_map] at member
  obtain ⟨item, found, rfl⟩ := List.mem_map.mp member
  obtain ⟨first, last, woven⟩ := each item found
  exact ⟨item.value, first, last, rfl, woven⟩

theorem exists_woven_indices {indices : List (Trivia × Expr)}
    (each : ∀ index ∈ indices, ∃ first last, Woven .assignment index.2 first last) :
    ∀ entry ∈ Expr.indexPieces indices, ∃ expr first last, entry = Expr.pieces expr ∧
      Woven .assignment expr first last := by
  intro entry member
  rw [Expr.indexPieces_eq_map] at member
  obtain ⟨index, found, rfl⟩ := List.mem_map.mp member
  obtain ⟨first, last, woven⟩ := each index found
  exact ⟨index.2, first, last, rfl, woven⟩

attribute [simp] Expr.pieces Expr.itemPieces Expr.indexPieces

theorem visible_of_isSpelt {kind : Kind} (spelt : kind.IsSpelt) : kind ≠ .newline := by
  obtain ⟨_, rfl, _⟩ | ⟨_, rfl⟩ := spelt <;> simp

namespace Woven

variable {strength other : Strength} {first last start stop operator : Token}

theorem identifier {token : Token} (name : token.IsName) : Woven .owner (.identifier token []) token token where
  weave := .single (Token.spelled_name name.1 name.2)
  opening := rfl
  opens := .inl name.opensOperand
  closes := by
    rw [name.1]
    rfl
  numbered := by
    intro _ isNumber
    rw [name.1] at isNumber
    cases isNumber

theorem literal {token : Token} (isLiteral : token.IsLiteral) : Woven .owner (.literal token []) token token where
  weave := .single (Token.spelled_literal isLiteral)
  opening := rfl
  opens := .inl isLiteral.opensOperand
  closes := by
    obtain ⟨_, isNumber | ⟨isString, _⟩⟩ := isLiteral
    · rw [isNumber]
      rfl
    · rw [isString]
      rfl
  numbered := fun owns => by cases owns

theorem grouping {inner : Expr} (woven : Woven .assignment inner first last) :
    Woven .owner (.grouping [] [inner] []) (.ofKind (.symbol .leftParen)) (.ofKind (.symbol .rightParen)) where
  weave := by
    have entries : ∀ entry ∈ [inner.pieces], ∃ expr first last, entry = Expr.pieces expr ∧
        Woven .assignment expr first last := by
      intro entry member
      exact ⟨inner, first, last, List.mem_singleton.mp member, woven⟩
    have bracketed := weave_bracketed entries (.ofKind (.symbol .leftParen)) rfl rfl (.inl ⟨rfl, rfl⟩)
    simpa [Expr.pieces, separated, mark] using bracketed
  opening := rfl
  opens := .inl ⟨rfl, Token.starts_of_fixed rfl (by decide)⟩
  closes := rfl
  numbered := fun _ => by decide

theorem array {elements : List (Item Expr)}
    (each : ∀ item ∈ elements, ∃ first last, Woven .assignment item.value first last) :
    Woven .owner (.array [] ⟨elements, elements.isEmpty⟩) (.ofKind (.symbol .leftBracket))
      (.ofKind (.symbol .rightBracket)) where
  weave := by
    have bracketed := weave_bracketed (exists_woven_items each) (.ofKind (.symbol .leftBracket)) rfl rfl
      (.inr ⟨rfl, rfl⟩)
    simpa [Expr.pieces, mark] using bracketed
  opening := rfl
  opens := .inl ⟨rfl, Token.starts_of_fixed rfl (by decide)⟩
  closes := rfl
  numbered := fun _ => by decide

theorem call {callee : Token} {arguments : List (Item Expr)} (name : callee.IsName)
    (each : ∀ item ∈ arguments, ∃ first last, Woven .assignment item.value first last) :
    Woven .owner (.call (.identifier callee []) [] ⟨arguments, arguments.isEmpty⟩ []) callee
      (.ofKind (.symbol .rightParen)) where
  weave := by
    have bracketed := weave_bracketed (exists_woven_items each) (.ofKind (.symbol .leftParen)) rfl rfl
      (.inl ⟨rfl, rfl⟩)
    have front := Weave.single (Token.spelled_name name.1 name.2)
    have closes : callee.kind.closesPlain = true := by
      rw [name.1]
      rfl
    have whole := front.join bracketed (Token.fits_closesPlain closes rfl rfl (by simp))
    simpa [Expr.pieces, mark] using whole
  opening := rfl
  opens := .inl name.opensOperand
  closes := rfl
  numbered := fun _ => by decide

theorem access {collection : Expr} {accessor : Token} {indices : List (Trivia × Expr)}
    (front : Woven .owner collection first last) (operator : accessor.IsOperator Kind.isAccessor)
    (nonempty : indices ≠ []) (each : ∀ index ∈ indices, ∃ first last, Woven .assignment index.2 first last) :
    Woven .owner (.access collection accessor indices []) first (.ofKind (.symbol .rightBracket)) where
  weave := by
    obtain ⟨symbol, isMark, known, apart⟩ := Kind.isSpelt_of_isAccessor _ operator.1
    by_cases plainBracket : accessor.kind = .symbol .leftBracket
    · have bracketed := weave_bracketed (exists_woven_indices each) accessor plainBracket operator.2
        (.inr ⟨rfl, rfl⟩)
      have whole := front.join bracketed plainBracket operator.2 (by decide)
      simpa [Expr.pieces, gap, mark, plainBracket] using whole
    · have entries : Expr.indexPieces indices ≠ [] := by
        rw [Expr.indexPieces_eq_map]
        simpa using nonempty
      obtain ⟨_, rest, _⟩ := weave_separated entries (exists_woven_indices each)
        (show Symbol.rightBracket ≠ .hash by decide) (by decide)
      have opened := weave_mark_space (Token.spelled_symbol isMark operator.2 known) (by simp [isMark]) rest
      have whole := front.join opened isMark operator.2 apart
      simpa [Expr.pieces, gap, mark, plainBracket] using whole
  opening := front.opening
  opens := front.opens
  closes := rfl
  numbered := fun _ => by decide

theorem dotted {owner member : Expr} (front : Woven .owner owner first last)
    (back : Woven .call member start stop) (owns : owner.ownsMembers = true)
    (starts : member.opening = some .identifier) : Woven .call (.dotted owner [] member []) first stop where
  weave := by
    have isName : start.kind = .identifier := by
      have opening := back.opening
      rw [starts] at opening
      exact (Option.some.inj opening).symm
    have spelled : start.Spelled := back.weave.spelled start (List.mem_of_mem_head? back.weave.head)
    have member := (Weave.single (Token.spelled_mark (show Symbol.dot ≠ .hash by decide))).join back.weave
      (Token.fits_point spelled isName)
    have fits : Piece.Fits (some last) (mark .dot) :=
      Token.fits_closesPlain front.closes rfl rfl fun _ => front.numbered owns
    exact front.weave.join member fits
  opening := front.opening
  opens := front.opens
  closes := back.closes
  numbered := fun owns => by cases owns

theorem step {operand : Expr} (woven : Woven .call operand first last)
    (isStep : operator.IsOperator Kind.isStep) : Woven .stepped (.step operand operator []) first operator := by
  obtain ⟨symbol, isMark, known, apart, closes⟩ := Kind.isSpelt_of_isStep _ isStep.1
  have back := Weave.single (Token.spelled_symbol isMark isStep.2 known)
  exact ⟨woven.join back isMark isStep.2 apart, woven.opening, woven.opens, closes, fun owns => by cases owns⟩

theorem unary {operand : Expr} (isUnary : operator.IsOperator Kind.isUnary)
    (woven : Woven .unary operand first last)
    (apart : operand.isUnary = true → operator.kind.isNegation = true) :
    Woven .unary (.unary operator [] operand) operator last where
  weave := by
    have spelled := isUnary.spelled Kind.isSpelt_of_isUnary
    have visible := visible_of_isSpelt (Kind.isSpelt_of_isUnary _ isUnary.1)
    by_cases isNot : operator.kind = .keyword .notWord
    · simpa [Expr.pieces, gap, isNot] using weave_mark_space spelled visible woven.weave
    · have fits : Piece.Fits (some operator) (some first) := by
        obtain opens | ⟨_, nested⟩ := woven.opens
        · exact Token.fits_opensOperand isUnary isNot opens
        · have negation := apart nested
          unfold Kind.isNegation at negation
          split at negation
          · exact Token.fits_opensPlain ‹_› (by decide) woven.opensPlain
          · exact Token.fits_opensPlain ‹_› (by decide) woven.opensPlain
          · exact absurd ‹_› isNot
          · cases negation
      simpa [Expr.pieces, gap, isNot] using (Weave.single spelled).join woven.weave fits
  opening := rfl
  opens := .inr ⟨isUnary, rfl⟩
  closes := woven.closes
  numbered := fun owns => by cases owns

theorem binary {left right : Expr} (front : Woven strength left first last)
    (back : Woven other right start stop) (spelled : operator.Spelled) (visible : operator.kind ≠ .newline)
    (tiers : List Tier) : Woven (.tiers tiers) (.binary left operator [] right) first stop where
  weave := front.weave.space front.noBreak (weave_mark_space spelled visible back.weave)
  opening := front.opening
  opens := front.opens.imp_right (And.imp_right fun _ => trivial)
  closes := back.closes
  numbered := fun owns => by cases owns

theorem ternary {condition yes no : Expr} {begin final : Token}
    (test : Woven (.tiers Tier.all) condition first last) (whenTrue : Woven .ternary yes start stop)
    (whenFalse : Woven .ternary no begin final) :
    Woven .ternary (.ternary condition [] yes [] no) first final where
  weave := by
    have colon := weave_mark_space (Token.spelled_mark (show Symbol.colon ≠ .hash by decide)) (by decide)
      whenFalse.weave
    have hook := weave_mark_space (Token.spelled_mark (show Symbol.hook ≠ .hash by decide)) (by decide)
      (whenTrue.joinGap colon rfl rfl (by decide) yes.spaced)
    have whole := test.joinGap hook rfl rfl (by decide) condition.spaced
    simpa [Expr.pieces, mark] using whole
  opening := test.opening
  opens := test.opens
  closes := whenFalse.closes
  numbered := fun owns => by cases owns

theorem assign {target value : Expr} (front : Woven .ternary target first last)
    (isAssignment : operator.IsOperator Kind.isAssignment) (back : Woven .assignment value start stop) :
    Woven .assignment (.assign target operator [] value) first stop where
  weave := by
    obtain ⟨symbol, isMark, known, apart⟩ := Kind.isSpelt_of_isAssignment _ isAssignment.1
    have spelled := Token.spelled_symbol isMark isAssignment.2 known
    have middle := weave_mark_space spelled (by simp [isMark]) back.weave
    have whole := front.joinGap middle isMark isAssignment.2 apart target.spaced
    simpa [Expr.pieces] using whole
  opening := front.opening
  opens := front.opens
  closes := back.closes
  numbered := fun owns => by cases owns

end Woven

theorem Plain.woven {strength : Strength} {expr : Expr} (plain : Plain strength expr) :
    ∃ first last, Woven strength expr first last := by
  induction plain with
  | identifier name => exact ⟨_, _, .identifier name⟩
  | literal isLiteral => exact ⟨_, _, .literal isLiteral⟩
  | grouping plain ih =>
    obtain ⟨_, _, woven⟩ := ih
    exact ⟨_, _, woven.grouping⟩
  | array bare plain ih => exact ⟨_, _, .array ih⟩
  | call name bare plain ih => exact ⟨_, _, .call name ih⟩
  | access owner operator nonempty bare plain ihOwner ih =>
    obtain ⟨_, _, front⟩ := ihOwner
    exact ⟨_, _, front.access operator nonempty ih⟩
  | owned plain ih =>
    obtain ⟨first, last, woven⟩ := ih
    exact ⟨first, last, woven.loosen id⟩
  | dotted plain owns named starts ihOwner ihMember =>
    obtain ⟨_, _, front⟩ := ihOwner
    obtain ⟨_, _, back⟩ := ihMember
    exact ⟨_, _, front.dotted back owns starts⟩
  | called plain ih =>
    obtain ⟨first, last, woven⟩ := ih
    exact ⟨first, last, woven.loosen id⟩
  | step plain isStep ih =>
    obtain ⟨_, _, woven⟩ := ih
    exact ⟨_, _, woven.step isStep⟩
  | stepped plain ih =>
    obtain ⟨first, last, woven⟩ := ih
    exact ⟨first, last, woven.loosen False.elim⟩
  | unary isUnary plain apart ih =>
    obtain ⟨_, _, woven⟩ := ih
    exact ⟨_, _, woven.unary isUnary apart⟩
  | operand plain ih | tighter plain ih | binary plain ih | value plain ih =>
    obtain ⟨first, last, woven⟩ := ih
    exact ⟨first, last, woven.loosen fun _ => trivial⟩
  | leftward known side leftPlain joins rightPlain ihLeft ihRight
  | rightward known side leftPlain joins rightPlain ihLeft ihRight =>
    obtain ⟨_, _, front⟩ := ihLeft
    obtain ⟨_, _, back⟩ := ihRight
    have spelt := Kind.isSpelt_of_joins (known.subset List.mem_cons_self)
    exact ⟨_, _, front.binary back (joins.spelled spelt) (visible_of_isSpelt (spelt _ joins.1)) _⟩
  | ternary conditionPlain truePlain falsePlain ihCondition ihTrue ihFalse =>
    obtain ⟨_, _, test⟩ := ihCondition
    obtain ⟨_, _, whenTrue⟩ := ihTrue
    obtain ⟨_, _, whenFalse⟩ := ihFalse
    exact ⟨_, _, test.ternary whenTrue whenFalse⟩
  | assign targetPlain isAssignment valuePlain ihTarget ihValue =>
    obtain ⟨_, _, front⟩ := ihTarget
    obtain ⟨_, _, back⟩ := ihValue
    exact ⟨_, _, front.assign isAssignment back⟩

theorem weave_separator {front back : List Piece} {first start stop : Token}
    (ended : Weave front first (.ofKind (.symbol .semicolon))) (rest : Weave back start stop) (breaks : Nat) :
    Weave (front ++ (separator breaks ++ back)) first stop := by
  cases breaks with
  | zero => exact ended.space (by decide) rest
  | succ breaks =>
    have spelled := rest.spelled start (List.mem_of_mem_head? rest.head)
    have broken := (Weave.lineBreaks breaks).join rest spelled.fits_lineBreak
    exact ended.join broken Token.semicolon_fits_lineBreak

theorem exists_weave_program {statements : List (Expr × Nat)} (nonempty : statements ≠ [])
    (plain : ∀ statement ∈ statements, Plain .assignment statement.1) :
    ∃ first, Weave (programPieces statements) first (.ofKind (.symbol .semicolon)) ∧ first.OpensPlain := by
  induction statements with
  | nil => exact absurd rfl nonempty
  | cons statement others ih =>
    obtain ⟨expr, breaks⟩ := statement
    obtain ⟨first, last, woven⟩ := (plain (expr, breaks) List.mem_cons_self).woven
    have semicolon := Weave.single (Token.spelled_mark (show Symbol.semicolon ≠ .hash by decide))
    have ended := woven.join semicolon rfl rfl (by decide)
    refine ⟨first, ?_, woven.opensPlain⟩
    cases others with
    | nil => exact ended
    | cons next others =>
      obtain ⟨start, rest, opens⟩ := ih (List.cons_ne_nil _ _) fun statement member =>
        plain statement (List.mem_cons_of_mem _ member)
      have whole := weave_separator ended rest breaks
      simpa [programPieces, Expr.statementPieces, Piece.mark] using whole

end GmlLayout
