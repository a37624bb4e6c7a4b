import GmlLayout.Proofs.Layout.Keeps
import GmlLayout.Proofs.Layout.Parted

/-!
Expressions whose tokens stay apart can be laid out wherever their first text fits. Behind an expression
there is room for everything, unless it may end without a space; then its last token decides.
-/

namespace GmlLayout.Print

open Page

variable [Account] {α β : Type}

section

variable {fits : String → Prop} {last : Option Token}

theorem brings_fields {action : Print α} (same : ∀ page, (after action page).buffer = page.buffer) :
    Brings (Stands fits last) action fun _ => Stands fits last :=
  fun page stands => stands.fields (same page)

theorem brings_exempt : Brings (Stands fits last) (modify exempt) fun _ => Stands fits last :=
  brings_fields fun _ => rfl

theorem brings_openFrame : Brings (Stands fits last) (modify openFrame) fun _ => Stands fits last :=
  brings_fields fun _ => rfl

theorem brings_closeFrame : Brings (Stands fits last) (modify closeFrame) fun _ => Stands fits last :=
  brings_fields fun page => page.buffer_closeFrame

theorem brings_dropSpace : Brings (Stands fits last) dropSpace
    fun _ => Stands (fun text => stopsBefore last (some text) = true) last :=
  fun _ stands => stands.dropSpace

theorem brings_dropBlanks : Brings (Stands fits last) dropBlanks
    fun _ => Stands (fun text => stopsBefore last (some text) = true) last :=
  fun _ stands => stands.dropBlanks

theorem brings_ensureSpace : Brings (Stands fits last) ensureSpace fun _ => Clear last :=
  fun _ stands => stands.ensureSpace

theorem brings_newline (move : Move) : Brings (Stands fits last) (newline move) fun _ => Clear last :=
  fun _ stands => stands.newline move

theorem brings_stepBack : Brings (Stands fits last) stepBack fun _ => Clear last := by
  intro page stands
  show (if page.onBlankLine then page.dropLine.indent .left else page.newline .left).Clear last
  split
  · rename_i blank
    exact Stands.writeMargin ((stands.dropLine blank).fields rfl)
  · exact stands.newline .left

theorem brings_token {token : Token} (shown : token.Shown) (sound : token.Sound)
    (allowed : fits token.lexeme ∨ isSevering token.lexeme = true) (spaceAfter : Bool) :
    Brings (Stands fits last) (writeToken token spaceAfter)
      fun _ => Stands (fun text => spaceAfter = true ∨ stopsBefore (some token) (some text) = true)
        (some token) :=
  fun _ stands => stands.writeToken shown sound allowed spaceAfter

theorem brings_spaced {token : Token} (shown : token.Shown) (sound : token.Sound)
    (allowed : fits token.lexeme ∨ isSevering token.lexeme = true) :
    Brings (Stands fits last) (writeToken token true) fun _ => Clear (some token) :=
  (brings_token shown sound allowed true).behind fun _ _ stands => stands.weaken fun _ _ => .inl rfl

theorem brings_word (word : Keyword) (allowed : fits word.text) :
    Brings (Stands fits last) (write word.text true) fun _ => Clear (some (.ofKind (.keyword word))) :=
  brings_spaced (Token.shown_word word) (Token.sound_word word) (.inl allowed)

theorem brings_mark (mark : Symbol) (known : mark ≠ .hash) (allowed : fits mark.text) (spaceAfter : Bool) :
    Brings (Stands fits last) (write mark.text spaceAfter)
      fun _ => Stands (fun text => spaceAfter = true ∨
        stopsBefore (some (.ofKind (.symbol mark))) (some text) = true) (some (.ofKind (.symbol mark))) :=
  brings_token (Token.shown_mark mark) (Token.sound_mark known) (.inl allowed) spaceAfter

theorem brings_inert (mark : Symbol) (inert : mark ∈ inertMarks) (spaceAfter : Bool) :
    Brings (Stands fits last) (write mark.text spaceAfter) fun _ => Clear (some (.ofKind (.symbol mark))) := by
  have known := ne_hash_of_inert inert
  have severs : isSevering mark.text = true := by
    revert inert
    cases mark <;> decide
  intro page stands
  have written := stands.writeToken (Token.shown_mark mark) (Token.sound_mark known) (.inr severs) spaceAfter
  refine written.of_inert ?_
  exact List.any_eq_true.mpr ⟨mark, inert, decide_eq_true rfl⟩

end

section

variable {fits : String → Prop} {last : Option Token} {drawn : Token → Prop}
  (proper : ∀ token, drawn token → token.kind ≠ .newline → token.Proper)

include proper

theorem brings_trivia {slot : Trivia} (formed : SlotFormed drawn slot) (how : Instruction) :
    Brings (Stands fits last) (trivia slot how)
      fun moved => Stands (fun text => moved = true ∨ fits text) (slotEnding slot last) :=
  fun _ stands => stands.trivia proper formed how

theorem brings_slot {slot : Trivia} (formed : SlotFormed drawn slot) (how : Instruction) :
    Brings (Stands fits last) (Print.slot slot how) fun _ => Stands fits (slotEnding slot last) :=
  fun _ stands => (stands.trivia proper formed how).weaken fun _ => .inr

theorem brings_closeExpression {trailing : Trivia} (formed : SlotFormed drawn trailing) :
    Brings (Stands fits last) (closeExpression trailing) fun _ => Stands fits (slotEnding trailing last) :=
  (brings_slot proper formed _).bind fun _ => brings_fields fun _ => rfl

omit proper in
theorem brings_closeExpression_nil :
    Brings (Stands fits last) (closeExpression []) fun _ => Stands fits last :=
  brings_fields fun _ => rfl

theorem brings_written {pre : Page → Prop} {token : Token} {behind : Trivia}
    (written : Brings pre (writeToken token true) fun _ => Clear (some token))
    (formed : SlotFormed drawn behind) (how : Instruction) :
    Brings pre (do writeToken token true; Print.slot behind how; closeExpression [])
      fun _ => Clear (slotEnding behind (some token)) :=
  written.bind fun _ => (brings_slot proper formed how).bind fun _ => brings_closeExpression_nil

theorem brings_leaf {token : Token} {behind : Trivia} (word : WordFormed drawn token)
    (formed : SlotFormed drawn behind) (allowed : fits token.lexeme) (how : Instruction) :
    Brings (Stands fits last) (do writeToken token true; Print.slot behind how; closeExpression [])
      fun _ => Clear (slotEnding behind (some token)) :=
  have isProper := proper token word.1 word.2
  brings_written proper (brings_spaced isProper.shown isProper.sound (.inl allowed)) formed how

theorem brings_closeEntry (endDelimited breakBetween breakAtEnd isLast : Bool) {trailing : Trivia}
    (formed : SlotFormed drawn trailing) :
    Brings (Stands fits last) (closeEntry endDelimited breakBetween breakAtEnd isLast trailing)
      fun _ => Stands (fun _ => (!isLast || endDelimited) = true) (slotEnding trailing
        (if !isLast || endDelimited then some (.ofKind (.symbol .comma)) else last)) := by
  let delimited : Bool := !isLast || endDelimited
  let ending : Option Token := if delimited then some (.ofKind (.symbol .comma)) else last
  have rest : Brings (Stands (fun _ => delimited = true) ending) (do
      if trailing.isEmpty then
        if (if isLast then breakAtEnd else breakBetween) then
          newline .stay
      else
        let moved ← trivia trailing (.respecting .stay .all)
        if !moved && breakBetween then
          newline .stay)
      fun _ => Stands (fun _ => delimited = true) (slotEnding trailing ending) := by
    have broken : ∀ {fits ending}, Brings (Stands fits ending) (newline .stay)
        fun _ => Stands (fun _ => delimited = true) ending :=
      (brings_newline .stay).behind fun _ _ clear => clear.everywhere
    refine .ite (fun empty => ?_) fun _ => ?_
    · rw [List.isEmpty_iff.mp empty]
      exact .ite (fun _ => broken) fun _ => .pure fun _ => id
    · refine (brings_trivia proper formed _).bind fun moved => ?_
      exact .ite (fun _ => broken) fun _ => .pure fun _ stands => stands.weaken fun _ => .inr
  unfold closeEntry
  refine brings_dropSpace.bind fun _ => ?_
  refine .optional (Stands (fun _ => delimited = true) ending) (fun delimits => ?_)
    (fun undelimited page stands => ?_) rest
  · refine (brings_inert .comma (by decide) true).behind fun _ _ clear => ?_
    have same : ending = some (.ofKind (.symbol .comma)) := if_pos delimits
    rw [same]
    exact clear.everywhere
  · have same : ending = last := if_neg undelimited
    rw [same]
    exact stands.weaken fun _ delimits => absurd delimits undelimited

omit proper in
theorem brings_closeCall (moved : Bool) (arguments : List (Item Expr)) :
    Brings (Stands fits last) (closeCall moved arguments)
      fun _ => Stands (fun _ => passesLambda arguments = false)
        (if passesLambda arguments then last else some (.ofKind (.symbol .rightParen))) := by
  unfold closeCall
  refine brings_dropBlanks.bind fun _ => ?_
  refine .optional (Stands (fun _ => False) last) (fun _ => ?_) (fun _ _ stands => ?_) ?_
  · exact (brings_newline .left).behind fun _ _ clear => clear.everywhere
  · exact stands.nowhere
  · refine .ite (fun passes => ?_) fun closes => ?_
    · rw [if_pos passes]
      have requested : Brings (Stands (fun _ => False) last)
          (modify fun page => page.requestBlock { noNewlineAfter := true })
          fun _ => Stands (fun _ => False) last := brings_fields fun _ => rfl
      refine requested.behind fun _ _ stands => stands.weaken fun _ closes => ?_
      rw [passes] at closes
      cases closes
    · rw [if_neg closes]
      refine (brings_inert .rightParen (by decide) true).behind fun _ _ clear => ?_
      exact clear.everywhere

theorem brings_closeGrouping (moved : Bool) {afterClose : Trivia} (formed : SlotFormed drawn afterClose) :
    Brings (Stands fits last) (closeGrouping moved afterClose)
      fun _ => Clear (slotEnding afterClose (some (.ofKind (.symbol .rightParen)))) := by
  have taken : Brings (Clear (some (.ofKind (.symbol .rightParen)))) (modifyGet takeGroupRequest)
      fun _ => Clear (some (.ofKind (.symbol .rightParen))) := by
    refine brings_fields fun page => ?_
    show page.takeGroupRequest.2.buffer = page.buffer
    unfold takeGroupRequest
    split <;> rfl
  unfold closeGrouping
  refine brings_dropSpace.bind fun _ => ?_
  refine .optional (Stands (fun _ => False) last) (fun _ => ?_) (fun _ _ stands => ?_) ?_
  · exact brings_stepBack.behind fun _ _ clear => clear.everywhere
  · exact stands.nowhere
  · refine (brings_inert .rightParen (by decide) true).bind fun _ => taken.bind fun request => ?_
    exact brings_slot proper formed _

end

section

variable (drawn : Token → Prop)

/-- The expression is laid out where its first text fits, and leaves room for everything unless it may end
without a space. -/
def Apart (expr : Expr) : Prop :=
  expr.Formed drawn → ∀ {fits : String → Prop} {last : Option Token}, expr.separate = true →
    (∀ text ∈ expr.leading, fits text) →
    Brings (Stands fits last) (Print.expr expr) fun _ => Stands (fun _ => expr.tight = false) expr.ending

def ApartAll (exprs : List Expr) : Prop :=
  Expr.ListFormed drawn exprs → ∀ {fits : String → Prop} {last : Option Token},
    Expr.listSeparate exprs = true → (∀ first ∈ exprs.head?, ∀ text ∈ first.leading, fits text) →
    Brings (Stands fits last) (Print.exprs exprs) fun _ => Stands (fun _ => False) none

def ApartItems (items : List (Item Expr)) : Prop :=
  Expr.ItemsFormed drawn items → ∀ {endDelimited breakBetween breakAtEnd : Bool} {fits : String → Prop}
    {last : Option Token}, Expr.itemsSeparate items = true →
    (∀ item ∈ items.head?, ∀ text ∈ item.value.leading, fits text) →
    Brings (Stands fits last) (entries endDelimited breakBetween breakAtEnd items)
      fun _ => Stands (fun _ => False) (Expr.itemsEnding endDelimited items)

def ApartIndices (indices : List (Trivia × Expr)) : Prop :=
  Expr.IndicesFormed drawn indices → ∀ {fits : String → Prop} {last : Option Token},
    Expr.indicesSeparate indices = true → (∀ index ∈ indices.head?, ∀ text ∈ index.2.leading, fits text) →
    Brings (Stands fits last) (indexList indices) fun _ => Stands (fun _ => False) none

end

attribute [simp] Print.expr Print.exprs entries indexList

attribute [simp] Expr.separate Expr.listSeparate Expr.itemsSeparate Expr.indicesSeparate

attribute [simp] Expr.tight Expr.ending

namespace Apart

variable {drawn : Token → Prop} (proper : ∀ token, drawn token → token.kind ≠ .newline → token.Proper)

include proper

theorem call {callee : Expr} {arguments : List (Item Expr)} {afterOpen trailing : Trivia}
    {endDelimited : Bool} (calleeApart : Apart drawn callee) (argumentsApart : ApartItems drawn arguments) :
    Apart drawn (.call callee afterOpen ⟨arguments, endDelimited⟩ trailing) := by
  intro formed fits last separate allowed
  obtain ⟨calleeFormed, openFormed, argumentsFormed, trailingFormed⟩ := formed
  simp only [Expr.separate, Bool.and_eq_true] at separate
  simp only [Expr.tight, Expr.ending]
  rw [Print.expr]
  refine .optional (Stands fits last) (fun _ => brings_exempt) (fun _ _ => id) ?_
  refine (calleeApart calleeFormed separate.1 allowed).bind fun _ => brings_dropSpace.bind fun _ => ?_
  refine (brings_inert .leftParen (by decide) false).bind fun _ => ?_
  refine (brings_trivia proper openFormed _).bind fun moved => ?_
  refine (argumentsApart argumentsFormed separate.2 fun _ _ _ _ => .inr trivial).bind fun _ => ?_
  exact (brings_closeCall moved arguments).bind fun _ => brings_closeExpression proper trailingFormed

theorem function {signature : Expr} {afterKeyword afterSignature trailing : Trivia} {isConstructor : Bool}
    (signatureApart : Apart drawn signature) :
    Apart drawn (.function afterKeyword signature afterSignature isConstructor trailing) := by
  intro formed fits last separate allowed
  obtain ⟨keywordFormed, signatureFormed, afterFormed, trailingFormed⟩ := formed
  simp only [Expr.separate, Bool.and_eq_true, Bool.or_eq_true, Bool.not_eq_true'] at separate
  obtain ⟨signatureSeparate, admits⟩ := separate
  simp only [Expr.tight, Expr.ending]
  rw [Print.expr]
  refine (brings_word .functionWord (allowed _ rfl)).bind fun _ => ?_
  refine (brings_slot proper keywordFormed _).bind fun _ => ?_
  refine (signatureApart signatureFormed signatureSeparate fun _ _ => trivial).bind fun _ => ?_
  cases isConstructor with
  | true =>
    have room : Brings (Stands (fun _ => signature.tight = false) signature.ending) (slot afterSignature {})
        fun _ => Stands (fun text => signature.admits (some text) = true)
          (slotEnding afterSignature signature.ending) :=
      (brings_slot proper afterFormed _).before fun _ stands => stands.admitted
    refine room.bind fun _ => (brings_word .constructorWord ?_).bind fun _ => ?_
    · exact admits.resolve_left (by simp)
    · refine brings_exempt.bind fun _ => (brings_closeExpression proper trailingFormed).behind ?_
      exact fun _ _ clear => clear.everywhere
  | false =>
    refine brings_dropBlanks.bind fun _ => (brings_slot proper afterFormed _).bind fun _ => ?_
    refine brings_exempt.bind fun _ => (brings_closeExpression proper trailingFormed).behind ?_
    exact fun _ _ stands => stands.weaken fun _ spaced => nomatch spaced

theorem lifetime {operator : Token} {operand : Expr} {afterOperator trailing : Trivia}
    (operandApart : Apart drawn operand) :
    Apart drawn (.lifetime operator afterOperator operand trailing) := by
  intro formed fits last separate allowed
  obtain ⟨operatorFormed, afterFormed, operandFormed, trailingFormed⟩ := formed
  simp only [Expr.separate] at separate
  simp only [Expr.tight, Expr.ending]
  have isProper := proper operator operatorFormed.1 operatorFormed.2
  rw [Print.expr]
  refine (brings_spaced isProper.shown isProper.sound (.inl (allowed _ rfl))).bind fun _ => ?_
  refine (brings_slot proper afterFormed _).bind fun _ => ?_
  refine (operandApart operandFormed separate fun _ _ => trivial).bind fun _ => ?_
  refine brings_dropBlanks.bind fun _ => (brings_closeExpression proper trailingFormed).behind ?_
  exact fun _ _ stands => stands.weaken fun _ spaced => nomatch spaced

theorem binary {operator : Token} {left right : Expr} {afterOperator : Trivia}
    (leftApart : Apart drawn left) (rightApart : Apart drawn right) :
    Apart drawn (.binary left operator afterOperator right) := by
  intro formed fits last separate allowed
  obtain ⟨leftFormed, _, operatorFormed, afterFormed, rightFormed⟩ := formed
  simp only [Expr.separate, Bool.and_eq_true] at separate
  simp only [Expr.tight, Expr.ending]
  have isProper := proper operator operatorFormed.1 operatorFormed.2
  rw [Print.expr]
  refine (leftApart leftFormed separate.1 allowed).bind fun _ => brings_ensureSpace.bind fun _ => ?_
  refine (brings_spaced isProper.shown isProper.sound (.inl trivial)).bind fun _ => ?_
  refine brings_openFrame.bind fun _ => (brings_slot proper afterFormed _).bind fun _ => ?_
  refine (rightApart rightFormed separate.2 fun _ _ => trivial).bind fun _ => ?_
  exact brings_closeFrame.bind fun _ => brings_closeExpression_nil

theorem grouping {inner : List Expr} {afterOpen afterClose : Trivia} (innerApart : ApartAll drawn inner) :
    Apart drawn (.grouping afterOpen inner afterClose) := by
  intro formed fits last separate allowed
  obtain ⟨openFormed, innerFormed, closeFormed⟩ := formed
  simp only [Expr.separate] at separate
  simp only [Expr.tight, Expr.ending]
  rw [Print.expr]
  refine (brings_inert .leftParen (by decide) false).bind fun _ => ?_
  refine (brings_trivia proper openFormed _).bind fun moved => ?_
  refine (innerApart innerFormed separate fun _ _ _ _ => .inr trivial).bind fun _ => ?_
  refine (brings_closeGrouping proper moved closeFormed).bind fun _ => ?_
  exact brings_closeExpression_nil.behind fun _ _ clear => clear.everywhere

theorem array {elements : List (Item Expr)} {afterOpen : Trivia} {endDelimited : Bool}
    (elementsApart : ApartItems drawn elements) :
    Apart drawn (.array afterOpen ⟨elements, endDelimited⟩) := by
  intro formed fits last separate allowed
  obtain ⟨openFormed, elementsFormed⟩ := formed
  simp only [Expr.separate, Bool.and_eq_true] at separate
  obtain ⟨elementsSeparate, first⟩ := separate
  simp only [Expr.tight, Expr.ending]
  have opens : ∀ item ∈ elements.head?, ∀ text ∈ item.value.leading,
      stopsBefore (some (.ofKind (.symbol .leftBracket))) (some text) = true := by
    intro item isFirst text leads
    rw [Option.mem_def.mp isFirst, Option.all_some, Option.mem_def.mp leads] at first
    exact first
  rw [Print.expr]
  refine (brings_mark .leftBracket (by decide) (allowed _ rfl) false).bind fun _ => ?_
  refine (brings_trivia proper openFormed _).bind fun moved => ?_
  refine (elementsApart elementsFormed elementsSeparate ?_).bind fun _ => ?_
  · exact fun item isFirst text leads => .inr (.inr (opens item isFirst text leads))
  · refine .optional (Stands (fun _ => False) _) (fun _ => ?_) (fun _ _ => id) ?_
    · exact (brings_newline .left).behind fun _ _ clear => clear.everywhere
    · refine (brings_inert .rightBracket (by decide) false).bind fun _ => ?_
      exact brings_closeExpression_nil.behind fun _ _ clear => clear.everywhere

theorem literal {token : Token} {after : Trivia} : Apart drawn (.literal token after) := by
  intro formed fits last _ allowed
  rw [Print.expr]
  exact (brings_leaf proper formed.1 formed.2 (allowed _ rfl) _).behind fun _ _ clear => clear.everywhere

theorem identifier {token : Token} {after : Trivia} : Apart drawn (.identifier token after) := by
  intro formed fits last _ allowed
  rw [Print.expr]
  exact (brings_leaf proper formed.1 formed.2 (allowed _ rfl) _).behind fun _ _ clear => clear.everywhere

theorem numberStartDot {token : Token} {after : Trivia} : Apart drawn (.numberStartDot token after) := by
  intro formed fits last separate allowed
  have isProper := proper token formed.1.1 formed.1.2
  rw [Print.expr]
  have isNumber := isProper.startDot (of_decide_eq_true separate)
  have half : Brings (Stands fits last) (write "0" false) fun _ => Halved "0" :=
    fun _ stands => stands.writeHalf Token.shown_zero Token.sound_zero (allowed _ rfl)
  have completed : Brings (Halved "0") (writeToken token true) fun _ => Clear (some token) :=
    fun _ halved => halved.complete isProper.shown isProper.sound isNumber
  refine half.bind fun _ => (brings_written proper completed formed.2 _).behind ?_
  exact fun _ _ clear => clear.everywhere

theorem numberEndDot {token : Token} {after : Trivia} : Apart drawn (.numberEndDot token after) := by
  intro formed fits last separate allowed
  have isProper := proper token formed.1.1 formed.1.2
  rw [Print.expr]
  have isNumber := isProper.endDot (of_decide_eq_true separate)
  have half : Brings (Stands fits last) (writeToken token false) fun _ => Halved token.lexeme :=
    fun _ stands => stands.writeHalf isProper.shown isProper.sound (allowed _ rfl)
  have completed : Brings (Halved token.lexeme) (write "0" true) fun _ => Clear (some .zero) :=
    fun _ halved => halved.complete Token.shown_zero Token.sound_zero isNumber
  refine half.bind fun _ => completed.bind fun _ => (brings_slot proper formed.2 _).bind fun _ => ?_
  exact brings_closeExpression_nil.behind fun _ _ clear => clear.everywhere

theorem unary {operator : Token} {operand : Expr} {afterOperator : Trivia}
    (operandApart : Apart drawn operand) : Apart drawn (.unary operator afterOperator operand) := by
  intro formed fits last separate allowed
  obtain ⟨operatorFormed, afterFormed, operandFormed⟩ := formed
  simp only [Expr.separate, Bool.and_eq_true, Bool.or_eq_true] at separate
  obtain ⟨operandSeparate, opens⟩ := separate
  simp only [Expr.tight, Expr.ending]
  have isProper := proper operator operatorFormed.1 operatorFormed.2
  rw [Print.expr]
  refine (brings_token isProper.shown isProper.sound (.inl (allowed _ rfl)) _).bind fun _ => ?_
  refine (brings_slot proper afterFormed _).bind fun _ => ?_
  refine (operandApart operandFormed operandSeparate fun text leads => ?_).bind fun _ => ?_
  · refine opens.imp id fun stops => ?_
    rw [Option.mem_def.mp leads] at stops
    exact stops
  · exact brings_closeExpression_nil

theorem step {operator : Token} {operand : Expr} {afterOperator : Trivia}
    (operandApart : Apart drawn operand) : Apart drawn (.step operand operator afterOperator) := by
  intro formed fits last separate allowed
  obtain ⟨operandFormed, operatorFormed, afterFormed⟩ := formed
  simp only [Expr.separate, Bool.and_eq_true] at separate
  rw [Print.expr]
  refine (operandApart operandFormed separate.1 allowed).bind fun _ => brings_dropSpace.bind fun _ => ?_
  exact (brings_leaf proper operatorFormed afterFormed separate.2 _).behind fun _ _ clear =>
    clear.everywhere

theorem assign {operator : Token} {target value : Expr} {afterOperator : Trivia}
    (targetApart : Apart drawn target) (valueApart : Apart drawn value) :
    Apart drawn (.assign target operator afterOperator value) := by
  intro formed fits last separate allowed
  obtain ⟨targetFormed, operatorFormed, afterFormed, valueFormed⟩ := formed
  simp only [Expr.separate, Bool.and_eq_true] at separate
  obtain ⟨⟨targetSeparate, admits⟩, valueSeparate⟩ := separate
  simp only [Expr.tight, Expr.ending]
  have isProper := proper operator operatorFormed.1 operatorFormed.2
  rw [Print.expr]
  refine ((targetApart targetFormed targetSeparate allowed).behind
    fun _ _ stands => stands.admitted).bind fun _ => ?_
  refine (brings_spaced isProper.shown isProper.sound (.inl admits)).bind fun _ => ?_
  refine (brings_slot proper afterFormed _).bind fun _ => ?_
  refine (valueApart valueFormed valueSeparate fun _ _ => trivial).bind fun _ => ?_
  exact brings_closeExpression_nil

theorem dotted {owner member : Expr} {afterDot trailing : Trivia} (ownerApart : Apart drawn owner)
    (memberApart : Apart drawn member) : Apart drawn (.dotted owner afterDot member trailing) := by
  intro formed fits last separate allowed
  obtain ⟨ownerFormed, dotFormed, memberFormed, trailingFormed⟩ := formed
  simp only [Expr.separate, Bool.and_eq_true] at separate
  obtain ⟨⟨⟨ownerSeparate, stops⟩, opens⟩, memberSeparate⟩ := separate
  simp only [Expr.tight, Expr.ending]
  rw [Print.expr]
  refine (ownerApart ownerFormed ownerSeparate allowed).bind fun _ => brings_dropSpace.bind fun _ => ?_
  refine (brings_mark .dot (by decide) stops false).bind fun _ => ?_
  refine brings_openFrame.bind fun _ => (brings_fields fun _ => rfl).bind fun outermost => ?_
  refine (brings_slot proper dotFormed _).bind fun _ => ?_
  refine (memberApart memberFormed memberSeparate fun text leads => ?_).bind fun _ => ?_
  · rw [Option.mem_def.mp leads] at opens
    exact .inr opens
  · refine brings_closeFrame.bind fun _ => (brings_fields fun page => ?_).bind fun _ => ?_
    · unfold closeChain
      split <;> rfl
    · exact brings_closeExpression proper trailingFormed

theorem access {accessor : Token} {collection : Expr} {indices : List (Trivia × Expr)} {trailing : Trivia}
    (collectionApart : Apart drawn collection) (indicesApart : ApartIndices drawn indices) :
    Apart drawn (.access collection accessor indices trailing) := by
  intro formed fits last separate allowed
  obtain ⟨collectionFormed, accessorFormed, indicesFormed, trailingFormed⟩ := formed
  simp only [Expr.separate, Bool.and_eq_true, Bool.or_eq_true] at separate
  obtain ⟨⟨⟨collectionSeparate, severs⟩, indicesSeparate⟩, opens⟩ := separate
  simp only [Expr.tight, Expr.ending]
  have isProper := proper accessor accessorFormed.1 accessorFormed.2
  rw [Print.expr]
  refine (collectionApart collectionFormed collectionSeparate allowed).bind fun _ => ?_
  refine brings_dropSpace.bind fun _ => ?_
  refine (brings_token isProper.shown isProper.sound (.inr severs) _).bind fun _ => ?_
  refine (indicesApart indicesFormed indicesSeparate fun index isFirst text leads => ?_).bind
    fun _ => ?_
  · refine opens.imp id fun stops => ?_
    rw [Option.mem_def.mp isFirst, Option.all_some, Option.mem_def.mp leads] at stops
    exact stops
  · refine brings_dropSpace.bind fun _ => (brings_inert .rightBracket (by decide) true).bind fun _ => ?_
    exact (brings_closeExpression proper trailingFormed).behind fun _ _ clear => clear.everywhere

theorem ternary {condition whenTrue whenFalse : Expr} {afterHook afterColon : Trivia}
    (conditionApart : Apart drawn condition) (trueApart : Apart drawn whenTrue)
    (falseApart : Apart drawn whenFalse) :
    Apart drawn (.ternary condition afterHook whenTrue afterColon whenFalse) := by
  intro formed fits last separate allowed
  obtain ⟨conditionFormed, hookFormed, trueFormed, colonFormed, falseFormed⟩ := formed
  simp only [Expr.separate, Bool.and_eq_true] at separate
  obtain ⟨⟨⟨conditionSeparate, admits⟩, trueSeparate⟩, falseSeparate⟩ := separate
  simp only [Expr.tight, Expr.ending]
  rw [Print.expr]
  refine ((conditionApart conditionFormed conditionSeparate allowed).behind
    fun _ _ stands => stands.admitted).bind fun _ => ?_
  refine (brings_mark .hook (by decide) admits true).bind fun _ => ?_
  refine brings_openFrame.bind fun _ => (brings_slot proper hookFormed _).bind fun _ => ?_
  refine (trueApart trueFormed trueSeparate fun _ _ => .inl rfl).bind fun _ => ?_
  refine (brings_inert .colon (by decide) true).bind fun _ => ?_
  refine (brings_trivia proper colonFormed _).bind fun moved => ?_
  refine (falseApart falseFormed falseSeparate fun _ _ => .inr trivial).bind fun _ => ?_
  refine brings_closeFrame.bind fun _ => .optional _ (fun _ => brings_fields fun _ => rfl) (fun _ _ => id) ?_
  exact brings_closeExpression_nil

omit proper in
theorem newline : Apart drawn .newline := by
  intro _ fits last _ _
  rw [Print.expr]
  refine brings_exempt.bind fun _ => .get fun page => ?_
  refine .optional (Stands (fun _ => False) none) (fun _ => ?_) (fun _ _ holds => ?_) ?_
  · rintro _ ⟨rfl, stands⟩
    exact (stands.newline .stay).nowhere.forget
  · obtain ⟨rfl, stands⟩ := holds
    exact stands.nowhere.forget
  · exact brings_closeExpression_nil.behind fun _ _ stands => stands.weaken fun _ spaced => nomatch spaced

theorem lineComment {token : Token} : Apart drawn (.lineComment token) := by
  intro formed fits last separate allowed
  have isProper := proper token formed.1 formed.2
  rw [Print.expr]
  refine brings_exempt.bind fun _ page stands => ?_
  have written := stands.remark isProper.shown separate (fun _ => allowed _ rfl) false (some token)
  exact brings_closeExpression_nil _ written.everywhere

theorem blockComment {token : Token} : Apart drawn (.blockComment token) := by
  intro formed fits last separate allowed
  have isProper := proper token formed.1 formed.2
  rw [Print.expr]
  refine brings_exempt.bind fun _ page stands => ?_
  have written := stands.remark isProper.shown separate (fun _ => allowed _ rfl) false (some token)
  exact brings_closeExpression_nil _ written.everywhere

theorem unidentified {token : Token} {trailing : Trivia} : Apart drawn (.unidentified token trailing) := by
  intro formed fits last _ allowed
  have isProper := proper token formed.1.1 formed.1.2
  rw [Print.expr]
  refine (brings_spaced isProper.shown isProper.sound (.inl (allowed _ rfl))).bind fun _ => ?_
  refine .optional _ (fun _ => brings_exempt) (fun _ _ => id) ?_
  exact (brings_closeExpression proper formed.2).behind fun _ _ clear => clear.everywhere

omit proper in
theorem nil : ApartAll drawn [] :=
  fun _ _ _ _ _ => .pure fun _ stands => stands.nowhere.forget

omit proper in
theorem singleton {only : Expr} (here : Apart drawn only) : ApartAll drawn [only] := by
  intro formed fits last separate allowed
  simp only [Expr.listSeparate] at separate
  rw [Print.exprs, Print.exprs]
  refine (here formed.1 separate (allowed only rfl)).bind fun _ => ?_
  exact .pure fun _ stands => stands.nowhere.forget

omit proper in
theorem cons {first next : Expr} {others : List Expr} (here : Apart drawn first)
    (later : ApartAll drawn (next :: others)) : ApartAll drawn (first :: next :: others) := by
  intro formed fits last separate allowed
  simp only [Expr.listSeparate, Bool.and_eq_true] at separate
  obtain ⟨⟨firstSeparate, admits⟩, othersSeparate⟩ := separate
  rw [Print.exprs]
  refine ((here formed.1 firstSeparate (allowed first rfl)).behind
    fun _ _ stands => stands.admitted).bind fun _ => ?_
  refine later formed.2 othersSeparate ?_
  rintro _ ⟨⟩ text leads
  rw [Expr.admits, Option.mem_def.mp leads] at admits
  exact admits

omit proper in
theorem itemsNil : ApartItems drawn [] :=
  fun _ _ _ _ _ _ _ _ => .pure fun _ stands => stands.nowhere.forget

theorem itemsSingleton {value : Expr} {trailing : Trivia} (here : Apart drawn value) :
    ApartItems drawn [⟨value, trailing⟩] := by
  intro formed endDelimited breakBetween breakAtEnd fits last separate allowed
  simp only [Expr.itemsSeparate, Bool.and_eq_true] at separate
  simp only [Expr.itemsEnding]
  rw [entries, entries]
  refine (here formed.1 separate.1 (allowed _ rfl)).bind fun _ => ?_
  refine (brings_closeEntry proper _ _ _ _ formed.2.1).bind fun _ => ?_
  exact .pure fun _ stands => stands.nowhere

theorem itemsCons {value : Expr} {trailing : Trivia} {next : Item Expr} {others : List (Item Expr)}
    (here : Apart drawn value) (later : ApartItems drawn (next :: others)) :
    ApartItems drawn (⟨value, trailing⟩ :: next :: others) := by
  intro formed endDelimited breakBetween breakAtEnd fits last separate allowed
  simp only [Expr.itemsSeparate, Bool.and_eq_true] at separate
  simp only [Expr.itemsEnding]
  rw [entries]
  refine (here formed.1 separate.1 (allowed _ rfl)).bind fun _ => ?_
  refine (brings_closeEntry proper _ _ _ _ formed.2.1).bind fun _ => ?_
  refine later formed.2.2 ?_ fun _ _ _ _ => rfl
  simp only [Expr.itemsSeparate, Bool.and_eq_true]
  exact separate.2

omit proper in
theorem indicesNil : ApartIndices drawn [] :=
  fun _ _ _ _ _ => .pure fun _ stands => stands.nowhere.forget

theorem indicesCons {before : Trivia} {index : Expr} {others : List (Trivia × Expr)}
    (here : Apart drawn index) (later : ApartIndices drawn others) :
    ApartIndices drawn ((before, index) :: others) := by
  intro formed fits last separate allowed
  simp only [Expr.indicesSeparate, Bool.and_eq_true] at separate
  rw [indexList]
  refine brings_openFrame.bind fun _ => (brings_slot proper formed.1 _).bind fun _ => ?_
  refine (here formed.2.1 separate.1 (allowed _ rfl)).bind fun _ => ?_
  refine brings_closeFrame.bind fun _ => brings_dropSpace.bind fun _ => ?_
  refine .optional (Stands (fun _ => others.isEmpty = false) none) (fun _ => ?_) (fun isLast _ stands => ?_) ?_
  · exact (brings_inert .comma (by decide) true).behind fun _ _ clear => clear.everywhere.forget
  · refine stands.forget.weaken fun _ more => ?_
    rw [more] at isLast
    exact absurd rfl isLast
  · refine later formed.2.2 separate.2 fun next isFirst _ _ => ?_
    cases others with
    | nil => cases isFirst
    | cons next others => rfl

end Apart

variable {drawn : Token → Prop}

mutual

theorem apart (proper : ∀ token, drawn token → token.kind ≠ .newline → token.Proper) :
    (expr : Expr) → Apart drawn expr
  | .call callee _ ⟨arguments, _⟩ _ => .call proper (apart proper callee) (apartItems proper arguments)
  | .function _ signature _ _ _ => .function proper (apart proper signature)
  | .lifetime _ _ operand _ => .lifetime proper (apart proper operand)
  | .binary left _ _ right => .binary proper (apart proper left) (apart proper right)
  | .grouping _ inner _ => .grouping proper (apartAll proper inner)
  | .array _ ⟨elements, _⟩ => .array proper (apartItems proper elements)
  | .literal .. => .literal proper
  | .identifier .. => .identifier proper
  | .numberStartDot .. => .numberStartDot proper
  | .numberEndDot .. => .numberEndDot proper
  | .unary _ _ operand => .unary proper (apart proper operand)
  | .step operand _ _ => .step proper (apart proper operand)
  | .assign target _ _ value => .assign proper (apart proper target) (apart proper value)
  | .dotted owner _ member _ => .dotted proper (apart proper owner) (apart proper member)
  | .access collection _ indices _ => .access proper (apart proper collection) (apartIndices proper indices)
  | .ternary condition _ whenTrue _ whenFalse =>
    .ternary proper (apart proper condition) (apart proper whenTrue) (apart proper whenFalse)
  | .newline => .newline
  | .lineComment _ => .lineComment proper
  | .blockComment _ => .blockComment proper
  | .unidentified .. => .unidentified proper

theorem apartAll (proper : ∀ token, drawn token → token.kind ≠ .newline → token.Proper) :
    (exprs : List Expr) → ApartAll drawn exprs
  | [] => Apart.nil
  | [only] => Apart.singleton (apart proper only)
  | first :: next :: others => Apart.cons (apart proper first) (apartAll proper (next :: others))

theorem apartItems (proper : ∀ token, drawn token → token.kind ≠ .newline → token.Proper) :
    (items : List (Item Expr)) → ApartItems drawn items
  | [] => Apart.itemsNil
  | [⟨value, _⟩] => Apart.itemsSingleton proper (apart proper value)
  | ⟨value, _⟩ :: next :: others =>
    Apart.itemsCons proper (apart proper value) (apartItems proper (next :: others))

theorem apartIndices (proper : ∀ token, drawn token → token.kind ≠ .newline → token.Proper) :
    (indices : List (Trivia × Expr)) → ApartIndices drawn indices
  | [] => Apart.indicesNil
  | (_, index) :: others => Apart.indicesCons proper (apart proper index) (apartIndices proper others)

end

end GmlLayout.Print
