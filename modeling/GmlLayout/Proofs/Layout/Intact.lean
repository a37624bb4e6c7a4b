import GmlLayout.Proofs.Layout.ExpressionInk
import GmlLayout.Proofs.Layout.Keeps
import GmlLayout.Proofs.Tree.Sheltered

/-!
Pages on which nothing stands behind a text that takes up its line. Such a text blocks its line; on a page
whose last line is not blocked, everything may be written. Line breaks free the page again. Only a step
that drops line breaks can block a page that was free, and only if such a text stands last.
-/

namespace GmlLayout

namespace Buffer

def blocked : Buffer → Bool
  | [] => false
  | .newline :: _ => false
  | .text content :: _ => isLineBound content
  | .space :: rest | .tab :: rest => blocked rest

def intact : Buffer → Bool
  | [] => true
  | .text _ :: rest => !blocked rest && intact rest
  | _ :: rest => intact rest

structure Free (buffer : Buffer) : Prop where
  intact : buffer.intact = true
  unblocked : buffer.blocked = false

def Open (buffer : Buffer) : Prop :=
  (ink buffer).getLast?.any (fun text => !isLineBound text) = true

theorem intact_of_append {later buffer : Buffer} (whole : intact (later ++ buffer) = true) :
    intact buffer = true := by
  induction later with
  | nil => exact whole
  | cons fragment later ih =>
    cases fragment with
    | text content =>
      rw [List.cons_append, intact, Bool.and_eq_true] at whole
      exact ih whole.2
    | space | tab | newline => exact ih whole

theorem Open.unblocked {buffer : Buffer} (isOpen : Open buffer) : blocked buffer = false := by
  unfold Open at isOpen
  induction buffer with
  | nil => rfl
  | cons fragment buffer ih =>
    cases fragment with
    | text content => simpa [ink, Fragment.ink, blocked] using isOpen
    | newline => rfl
    | space | tab => exact ih (by simpa [ink, Fragment.ink] using isOpen)

theorem unblocked_of_blankLineAbove {broken : Bool} {buffer : Buffer}
    (above : blankLineAbove broken buffer = true) : blocked buffer = false := by
  fun_induction blankLineAbove broken buffer with
  | case1 => rfl
  | case2 => cases above
  | case3 before rest => rfl
  | case4 broken before rest notBroken ih => rfl
  | case5 broken before rest ih => exact ih above
  | case6 broken before rest ih => exact ih above
  | case7 => cases above

namespace Free

variable {buffer : Buffer}

theorem nil : Free [] :=
  ⟨rfl, rfl⟩

theorem newline (whole : buffer.intact = true) : Free (.newline :: buffer) :=
  ⟨whole, rfl⟩

theorem intact_text (free : Free buffer) (content : String) : Buffer.intact (.text content :: buffer) = true := by
  rw [Buffer.intact, free.unblocked, free.intact]
  rfl

theorem text (free : Free buffer) {content : String} (unbound : isLineBound content = false) :
    Free (.text content :: buffer) :=
  ⟨free.intact_text content, unbound⟩

theorem blank (free : Free buffer) {fragment : Fragment} (blank : fragment.isBlank = true) :
    Free (fragment :: buffer) := by
  cases fragment with
  | text content => cases blank
  | space | tab => exact ⟨free.intact, free.unblocked⟩
  | newline => exact .newline free.intact

theorem blanks (free : Free buffer) {margin : Buffer}
    (blanks : ∀ fragment ∈ margin, fragment.isBlank = true) : Free (margin ++ buffer) := by
  induction margin with
  | nil => exact free
  | cons fragment margin ih =>
    rw [List.forall_mem_cons] at blanks
    exact (ih blanks.2).blank blanks.1

theorem ofText (free : Free buffer) {content : String} (unbound : isLineBound content = false) :
    Free (.ofText content :: buffer) := by
  unfold Fragment.ofText
  split
  · exact free.blank rfl
  · split
    · exact free.blank rfl
    · split
      · exact free.blank rfl
      · exact free.text unbound

theorem intact_ofText (free : Free buffer) (content : String) :
    Buffer.intact (.ofText content :: buffer) = true := by
  unfold Fragment.ofText
  split
  · exact free.intact
  · split
    · exact free.intact
    · split
      · exact free.intact
      · exact free.intact_text content

theorem dropSpace (free : Free buffer) : Free buffer.dropSpace := by
  unfold Buffer.dropSpace
  split
  · split
    · exact free
    · exact ⟨free.intact, free.unblocked⟩
  · exact free

/-- A line that is dropped down to the line break before it leaves the page free. Only the very first
fragment is kept without one, and then nothing but blanks stood behind it. -/
theorem dropLine (free : Free buffer) : Free buffer.dropLine := by
  fun_induction Buffer.dropLine buffer with
  | case1 => exact free
  | case2 => exact free
  | case3 before rest => exact free
  | case4 last before rest other ih =>
    cases last with
    | newline => exact absurd rfl other
    | space | tab => exact ih ⟨free.intact, free.unblocked⟩
    | text content =>
      have whole := free.intact
      rw [Buffer.intact, Bool.and_eq_true, Bool.not_eq_true'] at whole
      exact ih ⟨whole.2, whole.1⟩

end Free

theorem intact_dropBlanks {buffer : Buffer} (whole : intact buffer = true) :
    intact (dropBlanks buffer).2 = true := by
  fun_induction dropBlanks buffer with
  | case1 => exact whole
  | case2 => exact whole
  | case3 last before rest blank ih => exact ih (@intact_of_append [last] _ whole)
  | case4 last before rest shown => exact whole

theorem intact_dropSpace {buffer : Buffer} (whole : intact buffer = true) :
    intact buffer.dropSpace = true := by
  unfold dropSpace
  split
  · split
    · exact whole
    · exact whole
  · exact whole

end Buffer

namespace Page

def Free (page : Page) : Prop :=
  page.buffer.Free

def Open (page : Page) : Prop :=
  page.buffer.Open

def EndsOpen (keep : String → Bool) (page : Page) : Prop :=
  (page.kept keep).getLast?.any (fun text => !isLineBound text) = true

variable {page : Page}

theorem Free.push_blank (free : page.Free) {fragment : Fragment} (blank : fragment.isBlank = true) :
    (page.push fragment).Free :=
  Buffer.Free.blank free blank

theorem Free.write (free : page.Free) {content : String} (unbound : isLineBound content = false)
    (spaceAfter : Bool) : (page.write content spaceAfter).Free := by
  have written : (page.push (.ofText content)).Free := Buffer.Free.ofText free unbound
  unfold Page.write
  cases spaceAfter with
  | false => exact written
  | true => exact written.push_blank rfl

theorem Free.dropSpace (free : page.Free) : page.dropSpace.Free :=
  Buffer.Free.dropSpace free

theorem Free.ensureSpace (free : page.Free) : page.ensureSpace.Free := by
  unfold Page.ensureSpace
  split
  · exact free
  · exact free.push_blank rfl

theorem Free.writeMargin (free : page.Free) : page.writeMargin.Free :=
  Buffer.Free.blanks free page.isBlank_of_mem_margin

theorem Free.indent (free : page.Free) (move : Move) : (page.indent move).Free :=
  @Free.writeMargin (page.setIndentation move) free

theorem Free.indentTo (free : page.Free) (indentation : Int) : (page.indentTo indentation).Free :=
  @Free.writeMargin { page with indentation := indentation } free

theorem free_newline (whole : page.buffer.intact = true) (move : Move) : (page.newline move).Free := by
  unfold Page.newline
  split
  · rename_i kept
    rw [Bool.or_eq_true, List.isEmpty_iff] at kept
    obtain none | above := kept
    · exact ⟨whole, by rw [none]; rfl⟩
    · exact ⟨whole, Buffer.unblocked_of_blankLineAbove above⟩
  · exact @Free.indent (page.dropSpace.push .newline) (.newline (Buffer.intact_dropSpace whole)) move

theorem Free.newlines (free : page.Free) (count : Nat) : (page.newlines count).Free := by
  induction count generalizing page with
  | zero => exact free
  | succ count ih => exact ih (free_newline free.intact .stay)

theorem Free.dropLine (free : page.Free) : page.dropLine.Free :=
  Buffer.Free.dropLine free

theorem Free.dropBlanks (free : page.Free) (isOpen : page.Open) : page.dropBlanks.2.Free := by
  have same : Buffer.Open page.buffer.dropBlanks.2 := by
    rw [Buffer.Open, Buffer.ink_dropBlanks]
    exact isOpen
  exact ⟨Buffer.intact_dropBlanks free.intact, same.unblocked⟩

theorem free_firstBreak (whole : page.buffer.intact = true) (how : Instruction) (hint : Int) :
    (page.firstBreak how hint).Free := by
  unfold Page.firstBreak
  split
  · apply Free.indentTo
    split
    · rename_i above
      exact Free.dropLine ⟨whole, Buffer.unblocked_of_blankLineAbove above⟩
    · exact .newline (Buffer.intact_dropSpace whole)
  · exact free_newline whole how.move

theorem Free.exemptIf (free : page.Free) (trailing : Bool) : (page.exemptIf trailing).Free := by
  unfold Page.exemptIf
  split <;> exact free

theorem Free.writeToken (free : page.Free) (token : Token) (spaceAfter : Bool) :
    (page.writeToken token spaceAfter).buffer.intact = true ∧
      (token.isLineBound = false → (page.writeToken token spaceAfter).Free) := by
  refine ⟨?_, fun unbound => free.write unbound spaceAfter⟩
  unfold Page.writeToken Page.write
  cases spaceAfter with
  | false => exact Buffer.Free.intact_ofText free token.lexeme
  | true => exact Buffer.Free.intact_ofText free token.lexeme

theorem Free.writeRemark (free : page.Free) (how : Instruction) (token : Token) :
    (page.writeRemark how token).buffer.intact = true ∧
      (token.isLineBound = false → (page.writeRemark how token).Free) :=
  (free.exemptIf how.trailing).ensureSpace.writeToken token _

theorem Free.writeOddity (free : page.Free) (how : Instruction) {token : Token}
    (unbound : token.isLineBound = false) : (page.writeOddity how token).Free :=
  Free.write (@Free.exemptIf { page with oddities := token :: page.oddities } free _) unbound true

end Page

namespace Page

variable {page : Page}

/-- A slot that shelters its remarks leaves the page free. Behind a remark that takes up its line, the slot
goes on with a line break, and that one is never passed over. -/
theorem free_triviaFrom {how : Instruction} {opening : Opening} {moved : Bool} {slot : Trivia}
    (sheltered : slotSheltered slot = true)
    (entry : page.Free ∨ page.buffer.intact = true ∧ opening = .over ∧ slot.head?.any Token.isNewline = true) :
    (triviaFrom how opening moved slot page).2.Free := by
  induction slot generalizing opening moved page with
  | nil =>
    obtain free | ⟨_, _, none⟩ := entry
    · exact free
    · cases none
  | cons token rest ih =>
    have later : slotSheltered rest = true := by
      cases rest with
      | nil => rfl
      | cons next rest =>
        rw [slotSheltered, Bool.and_eq_true] at sheltered
        exact sheltered.2
    unfold triviaFrom
    by_cases broken : token.isNewline = true
    · rw [if_pos broken]
      have whole : page.buffer.intact = true := entry.elim (fun free => free.intact) fun blocked => blocked.1
      cases opening with
      | collapsing =>
        obtain free | ⟨_, counts, _⟩ := entry
        · exact ih later (.inl free)
        · cases counts
      | pending =>
        obtain free | ⟨_, counts, _⟩ := entry
        · simp only
          split
          · exact ih later (.inl free)
          · split
            · exact ih later (.inl (free_newline whole .stay))
            · exact ih later (.inl (free_firstBreak whole how _))
        · cases counts
      | _ =>
        simp only
        split
        · exact ih later (.inl (free_newline whole .stay))
        · exact ih later (.inl (free_firstBreak whole how _))
    · rw [if_neg broken]
      obtain free | ⟨_, _, head⟩ := entry
      · by_cases bound : token.isLineBound = true
        · cases rest with
          | nil => simp [slotSheltered, bound] at sheltered
          | cons next rest =>
            simp only [slotSheltered, bound, Bool.not_true, Bool.false_or, Bool.and_eq_true] at sheltered
            rw [if_pos sheltered.1.1]
            exact ih later (.inr ⟨(free.writeRemark how token).1, rfl, sheltered.1.2⟩)
        · rw [Bool.not_eq_true] at bound
          split
          · exact ih later (.inl ((free.writeRemark how token).2 bound))
          · exact ih later (.inl (free.writeOddity how bound))
      · exact absurd head broken

theorem Free.trivia (free : page.Free) {slot : Trivia} (sheltered : slotSheltered slot = true)
    (how : Instruction) : (page.trivia slot how).2.Free := by
  unfold Page.trivia
  split
  · exact free
  · exact free_triviaFrom sheltered (.inl free)

theorem moved_triviaFrom {how : Instruction} (breaks : how.leading ≠ .none) {opening : Opening} {moved : Bool}
    {slot : Trivia} (started : opening = .collapsing → moved = true) :
    (triviaFrom how opening moved slot page).1 = (moved || slot.any Token.isNewline) := by
  induction slot generalizing opening moved page with
  | nil => simp [triviaFrom]
  | cons token rest ih =>
    unfold triviaFrom
    by_cases broken : token.isNewline = true
    · rw [if_pos broken, List.any_cons, broken, Bool.true_or, Bool.or_true]
      cases opening with
      | collapsing =>
        rw [ih started, started rfl, Bool.true_or]
      | pending =>
        simp only [if_neg breaks]
        split
        · rw [ih fun _ => rfl, Bool.true_or]
        · rw [ih fun _ => rfl, Bool.true_or]
      | _ =>
        simp only
        split
        · rw [ih fun _ => rfl, Bool.true_or]
        · rw [ih fun _ => rfl, Bool.true_or]
    · rw [if_neg broken, List.any_cons, (Bool.not_eq_true _).mp broken, Bool.false_or]
      split
      · exact ih fun same => absurd same (by decide)
      · apply ih
        split
        · exact fun same => absurd same (by decide)
        · exact fun collapsing => absurd collapsing ‹_›

theorem moved_of_respect {how : Instruction} (respect : how.respect = true) (breaks : how.leading ≠ .none)
    (slot : Trivia) : (page.trivia slot how).1 = slot.any Token.isNewline := by
  unfold Page.trivia
  cases slot with
  | nil => rfl
  | cons token rest =>
    simp only [List.isEmpty_cons, respect, Bool.not_true, Bool.false_and, Bool.or_self, Bool.false_eq_true, if_false]
    rw [moved_triviaFrom breaks (by split <;> decide), Bool.false_or]

theorem moved_respecting (slot : Trivia) (move : Move) {leading : Leading} (breaks : leading ≠ .none) :
    (page.trivia slot (.respecting move leading)).1 = slot.any Token.isNewline :=
  moved_of_respect rfl breaks slot

end Page

namespace Print

open Page

abbrev Safe {α : Type} (action : Print α) : Prop :=
  Keeps Page.Free action

theorem safe_fields {α : Type} {action : Print α} (same : ∀ page, (after action page).buffer = page.buffer) :
    Safe action :=
  Keeps.buffer same

theorem safe_write {content : String} (unbound : isLineBound content = false) (spaceAfter : Bool) :
    Safe (write content spaceAfter) :=
  fun _ free => free.write unbound spaceAfter

theorem safe_writeToken {token : Token} (unbound : token.isLineBound = false) (spaceAfter : Bool) :
    Safe (writeToken token spaceAfter) :=
  fun _ free => free.write unbound spaceAfter

theorem safe_dropSpace : Safe dropSpace :=
  fun _ free => free.dropSpace

theorem safe_ensureSpace : Safe ensureSpace :=
  fun _ free => free.ensureSpace

theorem safe_newline (move : Move) : Safe (newline move) :=
  fun _ free => free_newline free.intact move

theorem safe_trivia {slot : Trivia} (sheltered : slotSheltered slot = true) (how : Instruction) :
    Safe (trivia slot how) :=
  fun _ free => free.trivia sheltered how

theorem safe_slot {slot : Trivia} (sheltered : slotSheltered slot = true) (how : Instruction) :
    Safe (Print.slot slot how) :=
  fun _ free => free.trivia sheltered how

theorem safe_exempt : Safe (modify exempt) :=
  safe_fields fun _ => rfl

theorem safe_openFrame : Safe (modify openFrame) :=
  safe_fields fun _ => rfl

theorem safe_closeFrame : Safe (modify closeFrame) := by
  refine safe_fields fun page => ?_
  show page.closeFrame.buffer = page.buffer
  unfold closeFrame
  split <;> rfl

theorem safe_stepBack : Safe stepBack := by
  intro page free
  show Page.Free (if page.onBlankLine then _ else _)
  split
  · exact free.dropLine.indent .left
  · exact free_newline free.intact .left

theorem safe_closeChain (outermost : Bool) : Safe (closeChain outermost) :=
  .ite (fun _ => safe_fields fun _ => rfl) fun _ => .pure

theorem safe_closeExpression {trailing : Trivia} (sheltered : slotSheltered trailing = true) :
    Safe (closeExpression trailing) :=
  (safe_slot sheltered _).bind fun _ => safe_fields fun _ => rfl

theorem safe_closeEntry (endDelimited breakBetween breakAtEnd isLast : Bool) {trailing : Trivia}
    (sheltered : slotSheltered trailing = true) :
    Safe (closeEntry endDelimited breakBetween breakAtEnd isLast trailing) := by
  unfold closeEntry
  refine safe_dropSpace.bind fun _ => .optional (fun _ => safe_write rfl true) ?_
  refine .ite (fun _ => ?_) fun _ => ?_
  · exact .ite (fun _ => safe_newline .stay) fun _ => .pure
  · refine (safe_trivia sheltered _).bind fun moved => ?_
    exact .ite (fun _ => safe_newline .stay) fun _ => .pure

/-- The parenthesis of a call is put behind the last argument, or on a line of its own. -/
theorem free_closeCall {page : Page} (free : page.Free) {moved : Bool} (arguments : List (Item Expr))
    (ready : moved = true ∨ page.Open) : (after (closeCall moved arguments) page).Free := by
  have dropped : (if moved then page.dropBlanks.2.newline .left else page.dropBlanks.2).Free := by
    split
    · exact free_newline (Buffer.intact_dropBlanks free.intact) .left
    · obtain isMoved | isOpen := ready
      · exact absurd isMoved ‹_›
      · exact free.dropBlanks isOpen
  have closed : Safe (if passesLambda arguments then modify fun page => page.requestBlock { noNewlineAfter := true }
      else write ")" true) :=
    .ite (fun _ => safe_fields fun _ => rfl) fun _ => safe_write rfl true
  unfold closeCall
  cases moved with
  | false => exact closed _ dropped
  | true => exact closed _ dropped

theorem safe_closeGrouping (moved : Bool) {afterClose : Trivia} (sheltered : slotSheltered afterClose = true) :
    Safe (closeGrouping moved afterClose) := by
  have taken : Safe (modifyGet takeGroupRequest) := by
    refine safe_fields fun page => ?_
    show page.takeGroupRequest.2.buffer = page.buffer
    unfold takeGroupRequest
    split <;> rfl
  unfold closeGrouping
  refine safe_dropSpace.bind fun _ => .optional (fun _ => safe_stepBack) ?_
  refine (safe_write rfl true).bind fun _ => taken.bind fun request => ?_
  exact safe_slot sheltered _

theorem any_getLast?_of_own {texts : List String}
    (ends : (texts.filter isOwn).getLast?.any (fun text => !isLineBound text) = true) :
    texts.getLast?.any (fun text => !isLineBound text) = true := by
  obtain none | ⟨earlier, last, shape⟩ := List.eq_nil_or_concat texts
  · rw [none] at ends
    cases ends
  · rw [shape, List.concat_eq_append] at ends ⊢
    by_cases own : isOwn last = true
    · simpa [List.filter_append, own] using ends
    · have semicolon : last = ";" := by simpa [isOwn] using own
      rw [semicolon, List.getLast?_concat]
      decide

theorem open_of_endsOpen {page : Page} (ends : page.EndsOpen isOwn) : page.Open :=
  any_getLast?_of_own ends

theorem endsOpen_of_kept {keep : String → Bool} {page : Page} {before : List String} {leaves : List Leaf}
    (same : page.kept keep = before ++ keptInk keep leaves) (ends : endsOpen keep leaves = true) :
    page.EndsOpen keep := by
  unfold endsOpen at ends
  rw [EndsOpen, same, List.getLast?_append]
  cases last : (keptInk keep leaves).getLast? with
  | none =>
    rw [last] at ends
    cases ends
  | some text =>
    rw [last] at ends
    exact ends

theorem safe_leaf {token : Token} {behind : Trivia} (unbound : token.isLineBound = false)
    (sheltered : slotSheltered behind = true) (how : Instruction) :
    Safe (do writeToken token true; Print.slot behind how; closeExpression []) :=
  (safe_writeToken unbound true).bind fun _ => (safe_slot sheltered how).bind fun _ =>
    safe_closeExpression rfl

/-- An expression that shelters its remarks leaves the page free. -/
def Harmless (expr : Expr) : Prop :=
  expr.sheltered = true → Safe (Print.expr expr)

def HarmlessAll (exprs : List Expr) : Prop :=
  Expr.listSheltered exprs = true → Safe (Print.exprs exprs)

def HarmlessItems (items : List (Item Expr)) : Prop :=
  Expr.entriesSheltered items = true →
    ∀ endDelimited breakBetween breakAtEnd, Safe (entries endDelimited breakBetween breakAtEnd items)

def HarmlessIndices (indices : List (Trivia × Expr)) : Prop :=
  Expr.indicesSheltered indices = true → Safe (indexList indices)

attribute [simp] Print.expr Print.exprs entries indexList

attribute [simp] Expr.sheltered Expr.listSheltered Expr.entriesSheltered Expr.indicesSheltered

namespace Harmless

theorem call {callee : Expr} {arguments : List (Item Expr)} {afterOpen trailing : Trivia}
    {endDelimited : Bool} (calleeSafe : Harmless callee) (argumentsSafe : HarmlessItems arguments) :
    Harmless (.call callee afterOpen ⟨arguments, endDelimited⟩ trailing) := by
  intro sheltered
  simp only [Expr.sheltered, Bool.and_eq_true, Bool.or_eq_true] at sheltered
  obtain ⟨⟨⟨⟨calleeSheltered, openSheltered⟩, argumentsSheltered⟩, trailingSheltered⟩, ready⟩ := sheltered
  rw [Print.expr]
  refine .optional (fun _ => safe_exempt) ?_
  refine (calleeSafe calleeSheltered).bind fun _ => safe_dropSpace.bind fun _ => ?_
  intro page free
  have opened : (after (trivia afterOpen (.respecting .right .one)) (after (write "(") page)).Free :=
    safe_trivia openSheltered _ _ (safe_write rfl false page free)
  have filled := argumentsSafe argumentsSheltered endDelimited false false _ opened
  have kept : (after (entries endDelimited false false arguments)
      (after (trivia afterOpen (.respecting .right .one)) (after (write "(") page))).kept isOwn =
      page.kept isOwn ++ keptInk isOwn
        ([.mark .leftParen] ++ slotLeaves afterOpen ++ Expr.entryLeaves endDelimited arguments) := by
    simp [kept_entries, Leaf.ink, Symbol.text]
  refine safe_closeExpression trailingSheltered _ (free_closeCall filled arguments ?_)
  obtain broken | ends := ready
  · exact .inl ((moved_respecting afterOpen .right (by decide)).trans broken)
  · exact .inr (open_of_endsOpen (endsOpen_of_kept kept ends))

theorem function {signature : Expr} {afterKeyword afterSignature trailing : Trivia} {isConstructor : Bool}
    (signatureSafe : Harmless signature) :
    Harmless (.function afterKeyword signature afterSignature isConstructor trailing) := by
  intro sheltered
  simp only [Expr.sheltered, Bool.and_eq_true, Bool.or_eq_true] at sheltered
  obtain ⟨⟨⟨⟨keywordSheltered, signatureSheltered⟩, afterSheltered⟩, trailingSheltered⟩, ready⟩ := sheltered
  have rest : Safe (do
      slot afterSignature {}
      if isConstructor then
        write "constructor" true
      modify Page.exempt
      closeExpression trailing) := by
    refine (safe_slot afterSheltered _).bind fun _ => .optional (fun _ => safe_write rfl true) ?_
    exact safe_exempt.bind fun _ => safe_closeExpression trailingSheltered
  rw [Print.expr]
  refine (safe_write rfl true).bind fun _ => (safe_slot keywordSheltered _).bind fun _ => ?_
  intro page free
  have signed : (after (Print.expr signature) page).Free := signatureSafe signatureSheltered page free
  cases isConstructor with
  | true => exact rest _ signed
  | false =>
    refine rest _ (signed.dropBlanks (open_of_endsOpen (endsOpen_of_kept (kept_expr _ signature page) ?_)))
    simpa using ready

theorem lifetime {operator : Token} {operand : Expr} {afterOperator trailing : Trivia}
    (operandSafe : Harmless operand) : Harmless (.lifetime operator afterOperator operand trailing) := by
  intro sheltered
  simp only [Expr.sheltered, Bool.and_eq_true, Bool.not_eq_true'] at sheltered
  obtain ⟨⟨⟨⟨unbound, afterSheltered⟩, operandSheltered⟩, trailingSheltered⟩, ends⟩ := sheltered
  rw [Print.expr]
  refine (safe_writeToken unbound true).bind fun _ => (safe_slot afterSheltered _).bind fun _ => ?_
  intro page free
  have filled : (after (Print.expr operand) page).Free := operandSafe operandSheltered page free
  have isOpen := open_of_endsOpen (endsOpen_of_kept (kept_expr isOwn operand page) ends)
  exact safe_closeExpression trailingSheltered _ (filled.dropBlanks isOpen)

theorem binary {operator : Token} {left right : Expr} {afterOperator : Trivia} (leftSafe : Harmless left)
    (rightSafe : Harmless right) : Harmless (.binary left operator afterOperator right) := by
  intro sheltered
  simp only [Expr.sheltered, Bool.and_eq_true, Bool.not_eq_true'] at sheltered
  obtain ⟨⟨⟨leftSheltered, unbound⟩, afterSheltered⟩, rightSheltered⟩ := sheltered
  rw [Print.expr]
  refine (leftSafe leftSheltered).bind fun _ => safe_ensureSpace.bind fun _ => ?_
  refine (safe_writeToken unbound true).bind fun _ => safe_openFrame.bind fun _ => ?_
  refine (safe_slot afterSheltered _).bind fun _ => (rightSafe rightSheltered).bind fun _ => ?_
  exact safe_closeFrame.bind fun _ => safe_closeExpression rfl

theorem grouping {inner : List Expr} {afterOpen afterClose : Trivia} (innerSafe : HarmlessAll inner) :
    Harmless (.grouping afterOpen inner afterClose) := by
  intro sheltered
  simp only [Expr.sheltered, Bool.and_eq_true] at sheltered
  obtain ⟨⟨openSheltered, innerSheltered⟩, closeSheltered⟩ := sheltered
  rw [Print.expr]
  refine (safe_write rfl false).bind fun _ => (safe_trivia openSheltered _).bind fun moved => ?_
  refine (innerSafe innerSheltered).bind fun _ => (safe_closeGrouping moved closeSheltered).bind fun _ => ?_
  exact safe_closeExpression rfl

theorem array {elements : List (Item Expr)} {afterOpen : Trivia} {endDelimited : Bool}
    (elementsSafe : HarmlessItems elements) : Harmless (.array afterOpen ⟨elements, endDelimited⟩) := by
  intro sheltered
  simp only [Expr.sheltered, Bool.and_eq_true] at sheltered
  rw [Print.expr]
  refine (safe_write rfl false).bind fun _ => (safe_trivia sheltered.1 _).bind fun moved => ?_
  refine (elementsSafe sheltered.2 _ _ _).bind fun _ => .optional (fun _ => safe_newline .left) ?_
  exact (safe_write rfl false).bind fun _ => safe_closeExpression rfl

theorem literal {token : Token} {after : Trivia} : Harmless (.literal token after) := by
  intro sheltered
  simp only [Expr.sheltered, Bool.and_eq_true, Bool.not_eq_true'] at sheltered
  rw [Print.expr]
  exact safe_leaf sheltered.1 sheltered.2 _

theorem identifier {token : Token} {after : Trivia} : Harmless (.identifier token after) := by
  intro sheltered
  simp only [Expr.sheltered, Bool.and_eq_true, Bool.not_eq_true'] at sheltered
  rw [Print.expr]
  exact safe_leaf sheltered.1 sheltered.2 _

theorem numberStartDot {token : Token} {after : Trivia} : Harmless (.numberStartDot token after) := by
  intro sheltered
  simp only [Expr.sheltered, Bool.and_eq_true, Bool.not_eq_true'] at sheltered
  rw [Print.expr]
  exact (safe_write rfl false).bind fun _ => safe_leaf sheltered.1 sheltered.2 _

theorem numberEndDot {token : Token} {after : Trivia} : Harmless (.numberEndDot token after) := by
  intro sheltered
  simp only [Expr.sheltered, Bool.and_eq_true, Bool.not_eq_true'] at sheltered
  rw [Print.expr]
  refine (safe_writeToken sheltered.1 false).bind fun _ => (safe_write rfl true).bind fun _ => ?_
  exact (safe_slot sheltered.2 _).bind fun _ => safe_closeExpression rfl

theorem unary {operator : Token} {operand : Expr} {afterOperator : Trivia} (operandSafe : Harmless operand) :
    Harmless (.unary operator afterOperator operand) := by
  intro sheltered
  simp only [Expr.sheltered, Bool.and_eq_true, Bool.not_eq_true'] at sheltered
  obtain ⟨⟨unbound, afterSheltered⟩, operandSheltered⟩ := sheltered
  rw [Print.expr]
  refine (safe_writeToken unbound _).bind fun _ => (safe_slot afterSheltered _).bind fun _ => ?_
  exact (operandSafe operandSheltered).bind fun _ => safe_closeExpression rfl

theorem step {operator : Token} {operand : Expr} {afterOperator : Trivia} (operandSafe : Harmless operand) :
    Harmless (.step operand operator afterOperator) := by
  intro sheltered
  simp only [Expr.sheltered, Bool.and_eq_true, Bool.not_eq_true'] at sheltered
  obtain ⟨⟨operandSheltered, unbound⟩, afterSheltered⟩ := sheltered
  rw [Print.expr]
  refine (operandSafe operandSheltered).bind fun _ => safe_dropSpace.bind fun _ => ?_
  exact safe_leaf unbound afterSheltered _

theorem assign {operator : Token} {target value : Expr} {afterOperator : Trivia}
    (targetSafe : Harmless target) (valueSafe : Harmless value) :
    Harmless (.assign target operator afterOperator value) := by
  intro sheltered
  simp only [Expr.sheltered, Bool.and_eq_true, Bool.not_eq_true'] at sheltered
  obtain ⟨⟨⟨targetSheltered, unbound⟩, afterSheltered⟩, valueSheltered⟩ := sheltered
  rw [Print.expr]
  refine (targetSafe targetSheltered).bind fun _ => (safe_writeToken unbound true).bind fun _ => ?_
  refine (safe_slot afterSheltered _).bind fun _ => (valueSafe valueSheltered).bind fun _ => ?_
  exact safe_closeExpression rfl

theorem dotted {owner member : Expr} {afterDot trailing : Trivia} (ownerSafe : Harmless owner)
    (memberSafe : Harmless member) : Harmless (.dotted owner afterDot member trailing) := by
  intro sheltered
  simp only [Expr.sheltered, Bool.and_eq_true] at sheltered
  obtain ⟨⟨⟨ownerSheltered, dotSheltered⟩, memberSheltered⟩, trailingSheltered⟩ := sheltered
  have chained : Safe openChain := safe_fields fun _ => rfl
  rw [Print.expr]
  refine (ownerSafe ownerSheltered).bind fun _ => safe_dropSpace.bind fun _ => ?_
  refine (safe_write rfl false).bind fun _ => safe_openFrame.bind fun _ => chained.bind fun outermost => ?_
  refine (safe_slot dotSheltered _).bind fun _ => (memberSafe memberSheltered).bind fun _ => ?_
  refine safe_closeFrame.bind fun _ => (safe_closeChain outermost).bind fun _ => ?_
  exact safe_closeExpression trailingSheltered

theorem access {accessor : Token} {collection : Expr} {indices : List (Trivia × Expr)} {trailing : Trivia}
    (collectionSafe : Harmless collection) (indicesSafe : HarmlessIndices indices) :
    Harmless (.access collection accessor indices trailing) := by
  intro sheltered
  simp only [Expr.sheltered, Bool.and_eq_true, Bool.not_eq_true'] at sheltered
  obtain ⟨⟨⟨collectionSheltered, unbound⟩, indicesSheltered⟩, trailingSheltered⟩ := sheltered
  rw [Print.expr]
  refine (collectionSafe collectionSheltered).bind fun _ => safe_dropSpace.bind fun _ => ?_
  refine (safe_writeToken unbound _).bind fun _ => (indicesSafe indicesSheltered).bind fun _ => ?_
  refine safe_dropSpace.bind fun _ => (safe_write rfl true).bind fun _ => ?_
  exact safe_closeExpression trailingSheltered

theorem ternary {condition whenTrue whenFalse : Expr} {afterHook afterColon : Trivia}
    (conditionSafe : Harmless condition) (trueSafe : Harmless whenTrue) (falseSafe : Harmless whenFalse) :
    Harmless (.ternary condition afterHook whenTrue afterColon whenFalse) := by
  intro sheltered
  simp only [Expr.sheltered, Bool.and_eq_true] at sheltered
  obtain ⟨⟨⟨⟨conditionSheltered, hookSheltered⟩, trueSheltered⟩, colonSheltered⟩, falseSheltered⟩ := sheltered
  rw [Print.expr]
  refine (conditionSafe conditionSheltered).bind fun _ => (safe_write rfl true).bind fun _ => ?_
  refine safe_openFrame.bind fun _ => (safe_slot hookSheltered _).bind fun _ => ?_
  refine (trueSafe trueSheltered).bind fun _ => (safe_write rfl true).bind fun _ => ?_
  refine (safe_trivia colonSheltered _).bind fun moved => (falseSafe falseSheltered).bind fun _ => ?_
  refine safe_closeFrame.bind fun _ => .optional (fun _ => safe_fields fun _ => rfl) ?_
  exact safe_closeExpression rfl

theorem newline : Harmless .newline := by
  intro _
  rw [Print.expr]
  refine safe_exempt.bind fun _ => .read fun page => ?_
  exact .optional (fun _ => safe_newline .stay) (safe_closeExpression rfl)

theorem lineComment {token : Token} : Harmless (.lineComment token) := by
  intro sheltered
  simp only [Expr.sheltered, Bool.not_eq_true'] at sheltered
  rw [Print.expr]
  refine safe_exempt.bind fun _ => (safe_writeToken sheltered false).bind fun _ => ?_
  exact safe_closeExpression rfl

theorem blockComment {token : Token} : Harmless (.blockComment token) := by
  intro sheltered
  simp only [Expr.sheltered, Bool.not_eq_true'] at sheltered
  rw [Print.expr]
  refine safe_exempt.bind fun _ => (safe_writeToken sheltered false).bind fun _ => ?_
  exact safe_closeExpression rfl

theorem unidentified {token : Token} {trailing : Trivia} : Harmless (.unidentified token trailing) := by
  intro sheltered
  simp only [Expr.sheltered, Bool.and_eq_true, Bool.not_eq_true'] at sheltered
  rw [Print.expr]
  refine (safe_writeToken sheltered.1 true).bind fun _ => .optional (fun _ => safe_exempt) ?_
  exact safe_closeExpression sheltered.2

theorem nil : HarmlessAll [] :=
  fun _ => .pure

theorem cons {first : Expr} {others : List Expr} (here : Harmless first) (later : HarmlessAll others) :
    HarmlessAll (first :: others) := by
  intro sheltered
  simp only [Expr.listSheltered, Bool.and_eq_true] at sheltered
  rw [Print.exprs]
  exact (here sheltered.1).bind fun _ => later sheltered.2

theorem itemsNil : HarmlessItems [] :=
  fun _ _ _ _ => .pure

theorem itemsCons {value : Expr} {trailing : Trivia} {others : List (Item Expr)} (here : Harmless value)
    (later : HarmlessItems others) : HarmlessItems (⟨value, trailing⟩ :: others) := by
  intro sheltered endDelimited breakBetween breakAtEnd
  simp only [Expr.entriesSheltered, Bool.and_eq_true] at sheltered
  rw [entries]
  refine (here sheltered.1.1).bind fun _ => ?_
  exact (safe_closeEntry _ _ _ _ sheltered.1.2).bind fun _ => later sheltered.2 _ _ _

theorem indicesNil : HarmlessIndices [] :=
  fun _ => .pure

theorem indicesCons {before : Trivia} {index : Expr} {others : List (Trivia × Expr)} (here : Harmless index)
    (later : HarmlessIndices others) : HarmlessIndices ((before, index) :: others) := by
  intro sheltered
  simp only [Expr.indicesSheltered, Bool.and_eq_true] at sheltered
  rw [indexList]
  refine safe_openFrame.bind fun _ => (safe_slot sheltered.1.1 _).bind fun _ => ?_
  refine (here sheltered.1.2).bind fun _ => safe_closeFrame.bind fun _ => ?_
  refine safe_dropSpace.bind fun _ => .optional (fun _ => safe_write rfl true) ?_
  exact later sheltered.2

end Harmless

mutual

theorem harmless : (expr : Expr) → Harmless expr
  | .call callee _ ⟨arguments, _⟩ _ => .call (harmless callee) (harmlessItems arguments)
  | .function _ signature _ _ _ => .function (harmless signature)
  | .lifetime _ _ operand _ => .lifetime (harmless operand)
  | .binary left _ _ right => .binary (harmless left) (harmless right)
  | .grouping _ inner _ => .grouping (harmlessAll inner)
  | .array _ ⟨elements, _⟩ => .array (harmlessItems elements)
  | .literal .. => .literal
  | .identifier .. => .identifier
  | .numberStartDot .. => .numberStartDot
  | .numberEndDot .. => .numberEndDot
  | .unary _ _ operand => .unary (harmless operand)
  | .step operand _ _ => .step (harmless operand)
  | .assign target _ _ value => .assign (harmless target) (harmless value)
  | .dotted owner _ member _ => .dotted (harmless owner) (harmless member)
  | .access collection _ indices _ => .access (harmless collection) (harmlessIndices indices)
  | .ternary condition _ whenTrue _ whenFalse =>
    .ternary (harmless condition) (harmless whenTrue) (harmless whenFalse)
  | .newline => .newline
  | .lineComment _ => .lineComment
  | .blockComment _ => .blockComment
  | .unidentified .. => .unidentified

theorem harmlessAll : (exprs : List Expr) → HarmlessAll exprs
  | [] => Harmless.nil
  | first :: others => Harmless.cons (harmless first) (harmlessAll others)

theorem harmlessItems : (items : List (Item Expr)) → HarmlessItems items
  | [] => Harmless.itemsNil
  | ⟨value, _⟩ :: others => Harmless.itemsCons (harmless value) (harmlessItems others)

theorem harmlessIndices : (indices : List (Trivia × Expr)) → HarmlessIndices indices
  | [] => Harmless.indicesNil
  | (_, index) :: others => Harmless.indicesCons (harmless index) (harmlessIndices others)

end

end Print

end GmlLayout
