import GmlLayout.Proofs.Layout.ExpressionInk
import GmlLayout.Proofs.Layout.NormalForm
import GmlLayout.Proofs.Tree.Parts

/-!
What an expression writes depends on the expression alone. On every page, whatever was written there and
asked of it, an expression of a parsed source leaves the texts that stand there in their place and puts
the texts of its own leaves behind them, each token as it is written in the source.
-/

namespace GmlLayout

namespace Leaf

/-- The texts of a leaf: the token that it stores as it is written, or what its node implies. A number
that starts or ends with its point gets a zero on that side, and a line break is no text. -/
def texts : Leaf → List String
  | .token held | .opening held => [held.lexeme]
  | .startDot held => ["0", held.lexeme]
  | .endDot held => [held.lexeme, "0"]
  | .trivia held => if held.isNewline then [] else [held.lexeme]
  | .unwritten _ => []
  | .word implied => [implied.text]
  | .mark symbol => [symbol.text]
  | .directive => ["#define"]

/-- A leaf of an expression that the grammar can build from the given tokens. -/
def Formed (drawn : Token → Prop) : Leaf → Prop
  | .token held | .startDot held | .endDot held | .opening held => WordFormed drawn held
  | .trivia held => drawn held
  | .unwritten _ => False
  | .word _ | .mark _ | .directive => True

end Leaf

theorem Token.Shown.textInk {token : Token} (shown : token.Shown) :
    GmlLayout.textInk token.lexeme = [token.lexeme] := by
  rw [GmlLayout.textInk, shown]
  rfl

section

variable {drawn : Token → Prop}

theorem Leaf.Formed.ink {leaf : Leaf} (formed : leaf.Formed drawn)
    (shown : ∀ token, drawn token → token.kind ≠ .newline → token.Shown) : leaf.ink = leaf.texts := by
  cases leaf with
  | token held => exact (shown held formed.1 formed.2).textInk
  | opening held => exact (shown held formed.1 formed.2).textInk
  | startDot held => rw [Leaf.ink, (shown held formed.1 formed.2).textInk]; rfl
  | endDot held => rw [Leaf.ink, (shown held formed.1 formed.2).textInk]; rfl
  | trivia held =>
    rw [Leaf.ink, texts]
    by_cases broken : held.isNewline = true
    · rw [if_pos broken, if_pos broken]
    · rw [if_neg broken, if_neg broken, (shown held formed (by simpa [Token.isNewline] using broken)).textInk]
  | unwritten held => exact formed.elim
  | word implied => cases implied <;> rfl
  | mark symbol => cases symbol <;> rfl
  | directive => rfl

theorem SlotFormed.leaves {slot : Trivia} (formed : SlotFormed drawn slot) :
    ∀ leaf ∈ slotLeaves slot, leaf.Formed drawn := by
  intro leaf member
  obtain ⟨token, among, rfl⟩ := List.mem_map.mp member
  exact (formed token among).1

theorem formed_delimiterLeaves (endDelimited isLast : Bool) :
    ∀ leaf ∈ delimiterLeaves endDelimited isLast, leaf.Formed drawn := by
  unfold delimiterLeaves
  split
  · exact List.forall_mem_singleton.mpr trivial
  · simp

namespace Expr

mutual

theorem Formed.leaves : ∀ {expr : Expr}, expr.Formed drawn → ∀ leaf ∈ expr.leaves, leaf.Formed drawn
  | .call callee afterOpen ⟨arguments, endDelimited⟩ trailing, formed => by
    have close : ∀ leaf ∈ (if Print.passesLambda arguments then [] else [Leaf.mark .rightParen]),
        leaf.Formed drawn := by
      split
      · simp
      · exact List.forall_mem_singleton.mpr trivial
    simp only [Expr.leaves, List.forall_mem_append, List.forall_mem_singleton]
    exact ⟨⟨⟨⟨⟨formed.1.leaves, trivial⟩, formed.2.1.leaves⟩, ItemsFormed.leaves formed.2.2.1 _⟩, close⟩,
      formed.2.2.2.leaves⟩
  | .function afterKeyword signature afterSignature isConstructor trailing, formed => by
    have word : ∀ leaf ∈ (if isConstructor then [Leaf.word .constructorWord] else []),
        leaf.Formed drawn := by
      split
      · exact List.forall_mem_singleton.mpr trivial
      · simp
    simp only [Expr.leaves, List.forall_mem_append, List.forall_mem_singleton]
    exact ⟨⟨⟨⟨⟨trivial, formed.1.leaves⟩, formed.2.1.leaves⟩, formed.2.2.1.leaves⟩, word⟩,
      formed.2.2.2.leaves⟩
  | .lifetime operator afterOperator operand trailing, formed => by
    simp only [Expr.leaves, List.forall_mem_append, List.forall_mem_singleton]
    exact ⟨⟨⟨formed.1, formed.2.1.leaves⟩, formed.2.2.1.leaves⟩, formed.2.2.2.leaves⟩
  | .binary left operator afterOperator right, formed => by
    simp only [Expr.leaves, List.forall_mem_append, List.forall_mem_singleton]
    exact ⟨⟨⟨formed.1.leaves, formed.2.2.1⟩, formed.2.2.2.1.leaves⟩, formed.2.2.2.2.leaves⟩
  | .grouping afterOpen inner afterClose, formed => by
    simp only [Expr.leaves, List.forall_mem_append, List.forall_mem_singleton]
    exact ⟨⟨⟨⟨trivial, formed.1.leaves⟩, formed.2.1.leaves⟩, trivial⟩, formed.2.2.leaves⟩
  | .array afterOpen ⟨elements, endDelimited⟩, formed => by
    simp only [Expr.leaves, List.forall_mem_append, List.forall_mem_singleton]
    exact ⟨⟨⟨trivial, formed.1.leaves⟩, ItemsFormed.leaves formed.2 _⟩, trivial⟩
  | .literal token after, formed => by
    simp only [Expr.leaves, List.forall_mem_append, List.forall_mem_singleton]
    exact ⟨formed.1, formed.2.leaves⟩
  | .identifier token after, formed => by
    simp only [Expr.leaves, List.forall_mem_append, List.forall_mem_singleton]
    exact ⟨formed.1, formed.2.leaves⟩
  | .numberStartDot token after, formed => by
    simp only [Expr.leaves, List.forall_mem_append, List.forall_mem_singleton]
    exact ⟨formed.1, formed.2.leaves⟩
  | .numberEndDot token after, formed => by
    simp only [Expr.leaves, List.forall_mem_append, List.forall_mem_singleton]
    exact ⟨formed.1, formed.2.leaves⟩
  | .unary operator afterOperator operand, formed => by
    simp only [Expr.leaves, List.forall_mem_append, List.forall_mem_singleton]
    exact ⟨⟨formed.1, formed.2.1.leaves⟩, formed.2.2.leaves⟩
  | .step operand operator afterOperator, formed => by
    simp only [Expr.leaves, List.forall_mem_append, List.forall_mem_singleton]
    exact ⟨⟨formed.1.leaves, formed.2.1⟩, formed.2.2.leaves⟩
  | .assign target operator afterOperator value, formed => by
    simp only [Expr.leaves, List.forall_mem_append, List.forall_mem_singleton]
    exact ⟨⟨⟨formed.1.leaves, formed.2.1⟩, formed.2.2.1.leaves⟩, formed.2.2.2.leaves⟩
  | .dotted owner afterDot member trailing, formed => by
    simp only [Expr.leaves, List.forall_mem_append, List.forall_mem_singleton]
    exact ⟨⟨⟨⟨formed.1.leaves, trivial⟩, formed.2.1.leaves⟩, formed.2.2.1.leaves⟩, formed.2.2.2.leaves⟩
  | .access collection accessor indices trailing, formed => by
    simp only [Expr.leaves, List.forall_mem_append, List.forall_mem_singleton]
    exact ⟨⟨⟨⟨formed.1.leaves, formed.2.1⟩, formed.2.2.1.leaves⟩, trivial⟩, formed.2.2.2.leaves⟩
  | .ternary condition afterHook whenTrue afterColon whenFalse, formed => by
    simp only [Expr.leaves, List.forall_mem_append, List.forall_mem_singleton]
    exact ⟨⟨⟨⟨⟨⟨formed.1.leaves, trivial⟩, formed.2.1.leaves⟩, formed.2.2.1.leaves⟩, trivial⟩,
      formed.2.2.2.1.leaves⟩, formed.2.2.2.2.leaves⟩
  | .newline, _ => by simp [Expr.leaves]
  | .lineComment token, formed => List.forall_mem_singleton.mpr formed
  | .blockComment token, formed => List.forall_mem_singleton.mpr formed
  | .unidentified token trailing, formed => by
    simp only [Expr.leaves, List.forall_mem_append, List.forall_mem_singleton]
    exact ⟨formed.1, formed.2.leaves⟩

theorem ListFormed.leaves : ∀ {exprs : List Expr}, ListFormed drawn exprs →
    ∀ leaf ∈ listLeaves exprs, leaf.Formed drawn
  | [], _ => by simp [listLeaves]
  | first :: others, formed => List.forall_mem_append.mpr ⟨formed.1.leaves, formed.2.leaves⟩

theorem ItemsFormed.leaves : ∀ {items : List (Item Expr)}, ItemsFormed drawn items →
    ∀ endDelimited, ∀ leaf ∈ entryLeaves endDelimited items, leaf.Formed drawn
  | [], _, _ => by simp [entryLeaves]
  | ⟨value, trailing⟩ :: others, formed, endDelimited => by
    simp only [entryLeaves, List.forall_mem_append]
    exact ⟨⟨⟨formed.1.leaves, formed_delimiterLeaves _ _⟩, formed.2.1.leaves⟩,
      ItemsFormed.leaves formed.2.2 endDelimited⟩

theorem IndicesFormed.leaves : ∀ {indices : List (Trivia × Expr)}, IndicesFormed drawn indices →
    ∀ leaf ∈ indexLeaves indices, leaf.Formed drawn
  | [], _ => by simp [indexLeaves]
  | (before, index) :: others, formed => by
    simp only [indexLeaves, List.forall_mem_append]
    exact ⟨⟨⟨formed.1.leaves, formed.2.1.leaves⟩, formed_delimiterLeaves _ _⟩, formed.2.2.leaves⟩

end

end Expr

end

namespace Print

/-- The closing parenthesis of a call is left out when the last argument that calls a word is a call of
`function`. -/
theorem passesLambda_iff (arguments : List (Item Expr)) :
    passesLambda arguments = true ↔ ∃ before last later, arguments = before ++ last :: later ∧
      last.value.isLambdaCall = true ∧ ∀ item ∈ later, item.value.unidentifiedCallee? = none := by
  unfold passesLambda Expr.isLambdaCall
  rw [List.getLast?_filterMap, Option.any_eq_true]
  simp only [List.findSome?_eq_some_iff]
  constructor
  · rintro ⟨token, ⟨later, last, before, split, callee, none⟩, lambda⟩
    refine ⟨before.reverse, last, later.reverse, ?_, ?_, ?_⟩
    · rw [← List.reverse_reverse arguments, split]
      simp
    · rw [callee]
      exact lambda
    · exact fun item member => none item (List.mem_reverse.mp member)
  · rintro ⟨before, last, later, split, lambda, none⟩
    obtain ⟨token, callee, lambda⟩ := Option.any_eq_true _ _ |>.mp lambda
    refine ⟨token, ⟨later.reverse, last, before.reverse, ?_, callee, ?_⟩, lambda⟩
    · rw [split]
      simp
    · exact fun item member => none item (List.mem_reverse.mp member)

/-- An expression of a parsed source adds the texts of its leaves to any page, and a call's leaves end in
a parenthesis unless the last argument that calls a word is a call of `function`. -/
theorem ink_expr {source : String} {program : List Stmt} (parsed : parse source = .ok program)
    {expr : Expr} (within : expr ∈ Stmt.listParts program) (page : Page) :
    (after (Print.expr expr) page).buffer.ink = page.buffer.ink ++ expr.leaves.flatMap Leaf.texts ∧
    ∀ arguments, passesLambda arguments = true ↔
      ∃ before last later, arguments = before ++ last :: later ∧ last.value.isLambdaCall = true ∧
        ∀ item ∈ later, item.value.unidentifiedCallee? = none := by
  refine ⟨?_, passesLambda_iff⟩
  have formed : expr.Formed (· ∈ scan source) := (parse_formed parsed).of_mem_parts expr within
  have written : expr.leaves.flatMap Leaf.ink = expr.leaves.flatMap Leaf.texts :=
    congrArg List.flatten (List.map_congr_left fun leaf member =>
      (formed.leaves leaf member).ink shown_of_mem_scan)
  have every : ∀ texts : List String, texts.filter (fun _ => true) = texts :=
    fun texts => List.filter_eq_self.mpr fun _ _ => rfl
  have all := kept_expr (fun _ => true) expr page
  rwa [Page.kept, Page.kept, keptInk, every, every, every, written] at all

/-- A number with a zero in front of it, a comment, and a call whose closing parenthesis is left out. -/
theorem ink_expr_lambda : ∃ program, parse "g(.5 /* c */, function())" = .ok program ∧
    ∃ expr ∈ Stmt.listParts program, ∀ page, (after (Print.expr expr) page).buffer.ink =
      page.buffer.ink ++ ["g", "(", "0", ".5", "/* c */", ",", "function", "(", ")"] := by
  have found : ∃ program, parse "g(.5 /* c */, function())" = .ok program ∧
      ∃ expr ∈ Stmt.listParts program, expr.leaves.flatMap Leaf.texts =
        ["g", "(", "0", ".5", "/* c */", ",", "function", "(", ")"] :=
    exists_ok (by decide +kernel)
  obtain ⟨program, parsed, expr, within, texts⟩ := found
  refine ⟨program, parsed, expr, within, fun page => ?_⟩
  rw [(ink_expr parsed within page).1, texts]

end Print

end GmlLayout
