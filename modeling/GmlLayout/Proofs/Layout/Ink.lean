import GmlLayout.Layout.Format
import GmlLayout.Proofs.Tree.Leaves

/-!
What stands on a page besides blanks. Most steps of a layout only add to it; those that take something
back drop blanks, with two exceptions that drop a whole line.
-/

namespace GmlLayout

def Fragment.ink : Fragment → List String
  | .text content => [content]
  | _ => []

def textInk (content : String) : List String :=
  (Fragment.ofText content).ink

theorem filter_textInk {keep : String → Bool} {content : String} (unkept : keep content = false) :
    (textInk content).filter keep = [] := by
  unfold textInk Fragment.ofText
  split
  · rfl
  · split
    · rfl
    · split
      · rfl
      · simp [Fragment.ink, unkept]

theorem Fragment.ink_of_isBlank {fragment : Fragment} (blank : fragment.isBlank = true) :
    fragment.ink = [] := by
  cases fragment <;> first | rfl | cases blank

namespace Buffer

/-- The texts of a buffer from its first to its last, without the blanks. -/
def ink : Buffer → List String
  | [] => []
  | fragment :: buffer => ink buffer ++ fragment.ink

theorem ink_append (later buffer : Buffer) : ink (later ++ buffer) = ink buffer ++ ink later := by
  induction later with
  | nil => simp [ink]
  | cons fragment later ih => simp [ink, ih]

theorem ink_blanks {blanks : Buffer} (blank : ∀ fragment ∈ blanks, fragment.isBlank = true) :
    ink blanks = [] := by
  induction blanks with
  | nil => rfl
  | cons fragment blanks ih =>
    rw [ink, ih fun other member => blank other (List.mem_cons_of_mem _ member),
      Fragment.ink_of_isBlank (blank fragment List.mem_cons_self), List.append_nil]

def lineInk : Buffer → List String
  | [] => []
  | [_] => []
  | last :: before :: rest =>
    if last = .newline then [] else lineInk (before :: rest) ++ last.ink

theorem ink_dropLine (buffer : Buffer) : ink (dropLine buffer) ++ lineInk buffer = ink buffer := by
  fun_induction dropLine buffer with
  | case1 => rfl
  | case2 first => simp [lineInk]
  | case3 before rest => simp [lineInk]
  | case4 last before rest other ih =>
    rw [lineInk, if_neg other, ← List.append_assoc, ih]
    rfl

theorem lineInk_of_onBlankLine {buffer : Buffer} (blank : onBlankLine buffer = true) :
    lineInk buffer = [] := by
  fun_induction onBlankLine buffer with
  | case1 => rfl
  | case2 first => cases blank
  | case3 before rest => rfl
  | case4 before rest ih => simp [lineInk, ih blank, Fragment.ink]
  | case5 before rest ih => simp [lineInk, ih blank, Fragment.ink]
  | case6 before rest content => cases blank

theorem onBlankLine_of_blankLineAbove {buffer : Buffer} (above : blankLineAbove false buffer = true) :
    onBlankLine buffer = true := by
  fun_induction onBlankLine buffer with
  | case1 => rfl
  | case2 first => cases above
  | case3 before rest => rfl
  | case4 before rest ih => exact ih (by simpa [blankLineAbove] using above)
  | case5 before rest ih => exact ih (by simpa [blankLineAbove] using above)
  | case6 before rest content => simp [blankLineAbove] at above

theorem ink_dropLine_of_onBlankLine {buffer : Buffer} (blank : onBlankLine buffer = true) :
    ink (dropLine buffer) = ink buffer := by
  have whole := ink_dropLine buffer
  rwa [lineInk_of_onBlankLine blank, List.append_nil] at whole

theorem ink_dropBlanks (buffer : Buffer) : ink (dropBlanks buffer).2 = ink buffer := by
  fun_induction dropBlanks buffer with
  | case1 => rfl
  | case2 first => rfl
  | case3 last before rest blank ih => rw [ink, ih, Fragment.ink_of_isBlank blank, List.append_nil]
  | case4 last before rest shown => rfl

theorem ink_dropSpace (buffer : Buffer) : ink (dropSpace buffer) = ink buffer := by
  unfold dropSpace
  split
  · split
    · rfl
    · simp [ink, Fragment.ink]
  · rfl

theorem ink_dropWhile (buffer : Buffer) : ink (buffer.dropWhile Fragment.isBlank) = ink buffer := by
  induction buffer with
  | nil => rfl
  | cons fragment buffer ih =>
    rw [List.dropWhile_cons]
    split
    · rw [ih, ink, Fragment.ink_of_isBlank ‹_›, List.append_nil]
    · rfl

end Buffer

/-- The ink of a leaf. A line break of a slot has none, and the slot behind `default` is not written. -/
def Leaf.ink : Leaf → List String
  | .token held | .opening held => textInk held.lexeme
  | .startDot held => textInk "0" ++ textInk held.lexeme
  | .endDot held => textInk held.lexeme ++ textInk "0"
  | .trivia held => if held.isNewline then [] else textInk held.lexeme
  | .unwritten _ => []
  | .word implied => textInk implied.text
  | .mark symbol => textInk symbol.text
  | .directive => textInk "#define"

def keptInk (keep : String → Bool) (leaves : List Leaf) : List String :=
  (leaves.flatMap Leaf.ink).filter keep

section

variable (keep : String → Bool)

@[simp] theorem keptInk_nil : keptInk keep [] = [] := rfl

@[simp] theorem keptInk_slot_nil : keptInk keep (slotLeaves []) = [] := rfl

@[simp] theorem keptInk_cons (leaf : Leaf) (leaves : List Leaf) :
    keptInk keep (leaf :: leaves) = leaf.ink.filter keep ++ keptInk keep leaves := by
  unfold keptInk
  rw [List.flatMap_cons, List.filter_append]

@[simp] theorem keptInk_append (first second : List Leaf) :
    keptInk keep (first ++ second) = keptInk keep first ++ keptInk keep second := by
  unfold keptInk
  rw [List.flatMap_append, List.filter_append]

namespace Page

def kept (page : Page) : List String :=
  page.buffer.ink.filter keep

variable (page : Page)

theorem kept_of_buffer {first second : Page} (same : first.buffer.ink = second.buffer.ink) :
    first.kept keep = second.kept keep := by
  unfold kept
  rw [same]

@[simp] theorem kept_push (fragment : Fragment) :
    (page.push fragment).kept keep = page.kept keep ++ fragment.ink.filter keep := by
  simp [kept, push, Buffer.ink]

@[simp] theorem kept_write (content : String) (spaceAfter : Bool) :
    (page.write content spaceAfter).kept keep = page.kept keep ++ (textInk content).filter keep := by
  unfold write
  cases spaceAfter <;> simp [textInk, Fragment.ink]

@[simp] theorem kept_writeToken (token : Token) (spaceAfter : Bool) :
    (page.writeToken token spaceAfter).kept keep =
      page.kept keep ++ (textInk token.lexeme).filter keep :=
  kept_write keep page _ _

@[simp] theorem kept_dropSpace : page.dropSpace.kept keep = page.kept keep :=
  kept_of_buffer keep (Buffer.ink_dropSpace _)

@[simp] theorem kept_dropBlanks : page.dropBlanks.2.kept keep = page.kept keep :=
  kept_of_buffer keep (Buffer.ink_dropBlanks _)

@[simp] theorem kept_dropAllBlanks : page.dropAllBlanks.kept keep = page.kept keep :=
  kept_of_buffer keep (Buffer.ink_dropWhile _)

theorem kept_dropLine :
    page.dropLine.kept keep ++ page.buffer.lineInk.filter keep = page.kept keep := by
  unfold kept
  rw [← List.filter_append]
  exact congrArg _ (Buffer.ink_dropLine _)

@[simp] theorem kept_ensureSpace : page.ensureSpace.kept keep = page.kept keep := by
  unfold ensureSpace
  split <;> simp [Fragment.ink]

@[simp] theorem kept_exempt : page.exempt.kept keep = page.kept keep := rfl

@[simp] theorem kept_setLineEnded (ended : Bool) : (page.setLineEnded ended).kept keep = page.kept keep :=
  rfl

@[simp] theorem kept_setIndentation (move : Move) :
    (page.setIndentation move).kept keep = page.kept keep :=
  rfl

@[simp] theorem kept_openFrame : page.openFrame.kept keep = page.kept keep := rfl

@[simp] theorem kept_closeFrame : page.closeFrame.kept keep = page.kept keep := by
  unfold closeFrame
  split <;> rfl

@[simp] theorem kept_enterFor : page.enterFor.kept keep = page.kept keep := rfl

@[simp] theorem kept_leaveFor : page.leaveFor.kept keep = page.kept keep := rfl

@[simp] theorem kept_requestBlock (request : BlockRequest) :
    (page.requestBlock request).kept keep = page.kept keep :=
  rfl

@[simp] theorem kept_takeBlockRequest : page.takeBlockRequest.2.kept keep = page.kept keep := by
  unfold takeBlockRequest
  split <;> rfl

@[simp] theorem kept_requestGroup (request : GroupRequest) :
    (page.requestGroup request).kept keep = page.kept keep :=
  rfl

@[simp] theorem kept_takeGroupRequest : page.takeGroupRequest.2.kept keep = page.kept keep := by
  unfold takeGroupRequest
  split <;> rfl

theorem isBlank_of_mem_margin : ∀ fragment ∈ page.margin, fragment.isBlank = true := by
  intro fragment member
  obtain ⟨unit, repeated, member⟩ := List.mem_flatten.mp member
  rw [List.eq_of_mem_replicate repeated] at member
  unfold Page.unit at member
  split at member
  · rw [List.eq_of_mem_replicate member]
    rfl
  · rw [List.mem_singleton.mp member]
    rfl

theorem ink_margin : Buffer.ink page.margin = [] :=
  Buffer.ink_blanks page.isBlank_of_mem_margin

@[simp] theorem kept_writeMargin : page.writeMargin.kept keep = page.kept keep := by
  apply kept_of_buffer
  simp [writeMargin, Buffer.ink_append, ink_margin]

@[simp] theorem kept_indent (move : Move) : (page.indent move).kept keep = page.kept keep :=
  kept_writeMargin keep _

@[simp] theorem kept_indentTo (indentation : Int) :
    (page.indentTo indentation).kept keep = page.kept keep :=
  kept_writeMargin keep _

@[simp] theorem kept_newline (move : Move) : (page.newline move).kept keep = page.kept keep := by
  unfold newline
  split <;> simp [Fragment.ink]

@[simp] theorem kept_newlines (count : Nat) : (page.newlines count).kept keep = page.kept keep := by
  induction count generalizing page with
  | zero => rfl
  | succ count ih => rw [newlines, ih, kept_newline]

@[simp] theorem kept_ensureNewline (move : Move) :
    (page.ensureNewline move).kept keep = page.kept keep := by
  unfold ensureNewline
  split <;> simp

@[simp] theorem kept_firstBreak (how : Instruction) (hint : Int) :
    (page.firstBreak how hint).kept keep = page.kept keep := by
  unfold firstBreak
  split
  · by_cases above : page.blankLineAbove = true
    · have blank : page.buffer.onBlankLine = true := Buffer.onBlankLine_of_blankLineAbove above
      simp only [above, if_true, kept_indentTo]
      exact kept_of_buffer keep (Buffer.ink_dropLine_of_onBlankLine blank)
    · simp [above, Fragment.ink]
  · simp

@[simp] theorem kept_exemptIf (trailing : Bool) : (page.exemptIf trailing).kept keep = page.kept keep := by
  unfold exemptIf
  split <;> rfl

@[simp] theorem kept_writeRemark (how : Instruction) (token : Token) :
    (page.writeRemark how token).kept keep = page.kept keep ++ (textInk token.lexeme).filter keep := by
  simp [writeRemark]

@[simp] theorem kept_writeOddity (how : Instruction) (token : Token) :
    (page.writeOddity how token).kept keep = page.kept keep ++ (textInk token.lexeme).filter keep := by
  rw [writeOddity, kept_writeToken, kept_exemptIf]
  rfl

theorem keptInk_slot_cons (token : Token) (rest : Trivia) :
    keptInk keep (slotLeaves (token :: rest)) =
      (if token.isNewline then [] else (textInk token.lexeme).filter keep)
        ++ keptInk keep (slotLeaves rest) := by
  unfold slotLeaves
  rw [List.map_cons, keptInk_cons, Leaf.ink]
  split <;> rfl

theorem kept_triviaFrom (how : Instruction) (opening : Opening) (moved : Bool) (slot : Trivia) :
    (triviaFrom how opening moved slot page).2.kept keep =
      page.kept keep ++ keptInk keep (slotLeaves slot) := by
  induction slot generalizing opening moved page with
  | nil => simp [triviaFrom, slotLeaves]
  | cons token rest ih =>
    unfold triviaFrom
    rw [keptInk_slot_cons]
    by_cases newline : token.isNewline = true
    · rw [if_pos newline, if_pos newline]
      cases opening with
      | collapsing => simp [ih]
      | pending =>
        simp only
        split
        · simp [ih]
        · split <;> simp [ih]
      | _ =>
        simp only
        split <;> simp [ih]
    · rw [if_neg newline, if_neg newline]
      split <;> simp [ih]

theorem keptInk_breaks {slot : Trivia} (breaks : slot.all Token.isNewline = true) :
    keptInk keep (slotLeaves slot) = [] := by
  induction slot with
  | nil => rfl
  | cons token rest ih =>
    rw [List.all_cons, Bool.and_eq_true] at breaks
    rw [keptInk_slot_cons, if_pos breaks.1, ih breaks.2, List.append_nil]

@[simp] theorem kept_trivia (slot : Trivia) (how : Instruction) :
    (page.trivia slot how).2.kept keep = page.kept keep ++ keptInk keep (slotLeaves slot) := by
  unfold trivia
  split
  · rename_i passed
    have breaks : slot.all Token.isNewline = true := by
      rw [Bool.or_eq_true, Bool.and_eq_true] at passed
      obtain none | ⟨_, breaks⟩ := passed
      · rw [List.isEmpty_iff.mp none]
        rfl
      · exact breaks
    rw [keptInk_breaks keep breaks, List.append_nil]
  · exact kept_triviaFrom keep page how _ _ slot

section

variable {keep} (unkept : keep ";" = false)

include unkept

theorem kept_writeSemicolon : page.writeSemicolon.kept keep = page.kept keep := by
  simp [writeSemicolon, filter_textInk unkept]

theorem kept_placeSemicolon : page.placeSemicolon.kept keep = page.kept keep := by
  unfold placeSemicolon
  split
  · exact kept_writeSemicolon page unkept
  · have whole := congrArg Buffer.ink page.buffer.afterCode_append_code
    rw [Buffer.ink_append] at whole
    simp [kept, Buffer.ink_append, Buffer.ink, Fragment.ink, unkept, ← whole]

end

end Page

end

namespace Print

def after {α : Type} (step : Print α) (page : Page) : Page :=
  (step.run page).2

def given {α : Type} (step : Print α) (page : Page) : α :=
  (step.run page).1

variable {α β : Type} (page : Page)

@[simp] theorem after_pure (value : α) : after (pure value) page = page := rfl

@[simp] theorem after_bind (step : Print α) (next : α → Print β) :
    after (step >>= next) page = after (next (given step page)) (after step page) :=
  rfl

@[simp] theorem given_bind (step : Print α) (next : α → Print β) :
    given (step >>= next) page = given (next (given step page)) (after step page) :=
  rfl

@[simp] theorem after_map (change : α → β) (step : Print α) : after (change <$> step) page = after step page :=
  rfl

@[simp] theorem after_get : after get page = page := rfl

@[simp] theorem after_modify (change : Page → Page) : after (modify change) page = change page := rfl

@[simp] theorem after_modifyGet (change : Page → α × Page) :
    after (modifyGet change) page = (change page).2 :=
  rfl

@[simp] theorem kept_after_ite (keep : String → Bool) (condition : Prop) [Decidable condition]
    (first second : Print α) :
    (after (if condition then first else second) page).kept keep =
      if condition then (after first page).kept keep else (after second page).kept keep := by
  split <;> rfl

end Print

end GmlLayout
