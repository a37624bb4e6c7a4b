import GmlLayout.Proofs.Layout.Endings
import GmlLayout.Proofs.Layout.PartedExpressions

/-!
Ends of statements whose tokens stay apart. A statement that ends with its semicolon or a line break leaves
room for everything. One that is exempt from its semicolon may leave none: then its last token decides about
what follows, and the line has not been ended yet.
-/

namespace GmlLayout

/-! Semicolons in front of a comment. -/

theorem isRemarkText_of_isLineComment {content : String}
    (comment : (Fragment.text content).isLineComment = true) : isRemarkText content = true :=
  List.any_eq_true.mpr ⟨"//", by decide, comment⟩

theorem firm_semicolon : Firm ";" :=
  (@Token.sound_mark .semicolon (by decide)).firm

namespace Buffer

variable [Account]

theorem beside_semicolon (next : String) : Beside ";" next :=
  (@Token.sound_mark .semicolon (by decide)).beside (Token.stopsBefore_inert (by decide) next)

/-- Behind the semicolon that is put in there are blanks and line comments. -/
theorem Parted.insert {later earlier : Buffer} (trails : ∀ fragment ∈ later, trailsCode fragment = true)
    (parted : Parted (later ++ earlier)) : Parted (later ++ .text ";" :: earlier) := by
  induction later with
  | nil => exact .text firm_semicolon (parted.takes_severing rfl) parted
  | cons fragment later ih =>
    rw [List.forall_mem_cons] at trails
    have inserted := ih trails.2 parted.tail
    cases fragment with
    | text content =>
      have remark := isRemarkText_of_isLineComment trails.1
      refine .text (.inl remark) (fun last isLast => ?_) inserted
      cases later with
      | nil =>
        cases isLast
        exact beside_semicolon content
      | cons fragment later => exact parted.takes (not_completes_of_remark remark) last isLast
    | space | tab | newline => exact .blank rfl inserted

theorem takes_of_trailsCode {fragment : Fragment} {buffer : Buffer} (trails : trailsCode fragment = true)
    (next : String) : Takes (fragment :: buffer) next := by
  cases fragment with
  | text content =>
    rintro _ ⟨⟩
    exact .inl (isRemarkText_of_isLineComment trails)
  | space | tab | newline => exact takes_blank rfl next

end Buffer

namespace Page

section

variable [Account] {fits : String → Prop} {last : Option Token} {page : Page}

namespace Stands

theorem writeSemicolon (stands : page.Stands fits last) :
    page.writeSemicolon.Clear (some (.ofKind (.symbol .semicolon))) :=
  Print.brings_inert .semicolon (by decide) true page.dropSpace stands.dropSpace

theorem placeSemicolon (stands : page.Stands fits last) : page.placeSemicolon.Clear none := by
  unfold Page.placeSemicolon
  split
  · exact stands.writeSemicolon.forget
  · rename_i more
    have trails : ∀ fragment ∈ page.buffer.afterCode, Buffer.trailsCode fragment = true :=
      List.all_eq_true.mp List.all_takeWhile
    have parted : Buffer.Parted (page.buffer.afterCode ++ page.buffer.code) := by
      rw [Buffer.afterCode_append_code]
      exact stands.parted
    refine ⟨parted.insert trails, fun next _ => ?_, fun _ member => nomatch member⟩
    show Buffer.Takes (page.buffer.afterCode ++ .text ";" :: page.buffer.code) next
    generalize page.buffer.afterCode = later at more trails
    cases later with
    | nil => exact absurd rfl more
    | cons fragment later => exact Buffer.takes_of_trailsCode (trails fragment List.mem_cons_self) next

theorem newlinesIf (clear : page.Clear last) (count : Nat) : (page.newlines count).Clear last := by
  cases count with
  | zero => exact clear
  | succ count => exact clear.newlines (Nat.succ_pos _)

theorem ensureNewline (clear : page.Clear last) (move : Move) : (page.ensureNewline move).Clear last := by
  unfold Page.ensureNewline
  split
  · exact clear
  · exact clear.newline move

theorem behindBrace (stands : page.Stands fits last) (brace : page.buffer.code.head? = some (.text "\x7d")) :
    page.Clear none := by
  refine ⟨stands.parted, fun next _ content isLast => ?_, fun _ member => nomatch member⟩
  obtain ⟨earlier, shape⟩ := List.head?_eq_some_iff.mp isLast
  by_cases comment : Buffer.trailsCode (.text content) = true
  · exact .inl (isRemarkText_of_isLineComment comment)
  · rw [shape, Buffer.code, List.dropWhile_cons_of_neg comment] at brace
    cases brace
    have inert : (Token.ofKind (.symbol .rightBrace)).isInert = true := by decide
    exact (@Token.sound_mark .rightBrace (by decide)).beside (Token.stopsBefore_inert inert next)

theorem of_onBlankLine (stands : page.Stands fits last) (blank : page.onBlankLine = true) :
    page.Clear last :=
  ⟨stands.parted, fun next _ => Buffer.takes_of_onBlankLine blank next, stands.ends⟩

end Stands

end

/-! Slots leave it open whether the line has been ended. -/

theorem lineEnded_newline (page : Page) (move : Move) : (page.newline move).lineEnded = page.lineEnded := by
  unfold Page.newline
  split <;> rfl

theorem lineEnded_firstBreak (page : Page) (how : Instruction) (hint : Int) :
    (page.firstBreak how hint).lineEnded = page.lineEnded := by
  unfold Page.firstBreak
  split
  · split <;> rfl
  · exact lineEnded_newline page how.move

theorem lineEnded_writeToken (page : Page) (token : Token) (spaceAfter : Bool) :
    (page.writeToken token spaceAfter).lineEnded = page.lineEnded := by
  cases spaceAfter <;> rfl

theorem lineEnded_exemptIf (page : Page) (trailing : Bool) :
    (page.exemptIf trailing).lineEnded = page.lineEnded := by
  cases trailing <;> rfl

theorem lineEnded_writeRemark (page : Page) (how : Instruction) (token : Token) :
    (page.writeRemark how token).lineEnded = page.lineEnded := by
  unfold Page.writeRemark
  rw [lineEnded_writeToken]
  unfold Page.ensureSpace
  split <;> exact lineEnded_exemptIf page how.trailing

theorem lineEnded_writeOddity (page : Page) (how : Instruction) (token : Token) :
    (page.writeOddity how token).lineEnded = page.lineEnded := by
  unfold Page.writeOddity
  rw [lineEnded_writeToken, lineEnded_exemptIf]

theorem lineEnded_triviaFrom (how : Instruction) (opening : Opening) (moved : Bool) (slot : Trivia)
    (page : Page) :
    (triviaFrom how opening moved slot page).2.lineEnded = page.lineEnded := by
  fun_induction triviaFrom how opening moved slot page with
  | case1 => rfl
  | case2 _ _ _ _ _ ih => exact ih
  | case3 _ _ _ _ _ _ ih => exact ih
  | case4 _ _ _ _ _ ih => exact ih.trans (lineEnded_newline _ _)
  | case5 _ _ _ _ _ _ _ ih => exact ih.trans (lineEnded_firstBreak _ _ _)
  | case6 _ _ _ _ ih => exact ih.trans (lineEnded_newline _ _)
  | case7 _ _ _ _ _ _ ih => exact ih.trans (lineEnded_firstBreak _ _ _)
  | case8 _ _ _ _ _ _ _ ih => exact ih.trans (lineEnded_writeRemark _ _ _)
  | case9 _ _ _ _ _ _ _ ih => exact ih.trans (lineEnded_writeOddity _ _ _)

theorem lineEnded_trivia (page : Page) (slot : Trivia) (how : Instruction) :
    (page.trivia slot how).2.lineEnded = page.lineEnded := by
  unfold Page.trivia
  split
  · rfl
  · exact lineEnded_triviaFrom how _ false slot page

theorem lineEnded_closeFrame (page : Page) : page.closeFrame.lineEnded = page.lineEnded := by
  unfold Page.closeFrame
  split <;> rfl

section

variable [Account] {page : Page}

theorem clear_of_empty (empty : page.buffer = []) : page.Clear none := by
  refine ⟨?_, fun next _ content isLast => ?_, fun _ member => nomatch member⟩
  · rw [empty]
    exact .nil
  · rw [empty] at isLast
    cases isLast

structure Hangs (ending : Option Token) (page : Page) : Prop where
  line : page.lineEnded = false
  stands : page.Stands (fun _ => False) ending

theorem Hangs.fields {ending : Option Token} {next : Page} (hangs : page.Hangs ending)
    (same : next.buffer = page.buffer) (line : next.lineEnded = page.lineEnded) : next.Hangs ending :=
  ⟨line.trans hangs.line, hangs.stands.fields same⟩

/-- What a statement leaves behind: room for everything, or a line that goes on. -/
def Releases (tight : Bool) (ending : Option Token) (page : Page) : Prop :=
  page.Clear none ∨ tight = true ∧ page.Hangs ending

/-- There is room for what comes first. A line that goes on can be ended by a line break. -/
def Awaits (next : Option String) (page : Page) : Prop :=
  page.Clear none ∨ page.lineEnded = false ∧ page.Stands (· ∈ next) none

theorem Awaits.stands {next : Option String} (awaits : page.Awaits next) : page.Stands (· ∈ next) none := by
  obtain clear | ⟨_, stands⟩ := awaits
  · exact clear.everywhere
  · exact stands

namespace Releases

variable {tight : Bool} {ending : Option Token}

theorem stands (releases : page.Releases tight ending) : page.Stands (fun _ => False) none := by
  obtain clear | ⟨_, hangs⟩ := releases
  · exact clear.everywhere
  · exact hangs.stands.forget

theorem fields {next : Page} (releases : page.Releases tight ending) (same : next.buffer = page.buffer)
    (line : next.lineEnded = page.lineEnded) : next.Releases tight ending := by
  obtain clear | ⟨isTight, hangs⟩ := releases
  · exact .inl (clear.fields same)
  · exact .inr ⟨isTight, hangs.fields same line⟩

theorem awaits (releases : page.Releases tight ending) {next : Option String}
    (admits : (!tight || stopsBefore ending next) = true) : page.Awaits next := by
  obtain clear | ⟨rfl, hangs⟩ := releases
  · exact .inl clear
  · have stands : page.Stands (fun _ => true = false) ending :=
      hangs.stands.weaken fun _ never => by cases never
    refine .inr ⟨hangs.line, stands.admitted.forget.weaken fun text leads => ?_⟩
    rw [Option.mem_def.mp leads] at admits
    exact admits

theorem clear (releases : page.Releases tight ending) (admits : (!tight || ending.any Token.isInert) = true) :
    page.Clear none := by
  obtain clear | ⟨rfl, hangs⟩ := releases
  · exact clear
  · exact (hangs.stands.of_inert admits).forget

end Releases

end

end Page

namespace Print

open Page

section

variable [Account] {fits : String → Prop} {last : Option Token} {tight : Bool} {ending : Option Token}

theorem brings_semicolon : Brings (Stands fits last) (modify writeSemicolon) fun _ => Clear none :=
  fun _ stands => stands.writeSemicolon.forget

theorem brings_semicolonIf (written : Bool) :
    Brings (Releases tight ending) (semicolonIf written) fun _ => Releases (!written && tight) ending := by
  cases written with
  | true => exact fun _ releases => .inl releases.stands.writeSemicolon.forget
  | false => exact .pure fun _ => id

theorem clears_semicolonIf (written : Bool) : Brings (Clear none) (semicolonIf written) fun _ => Clear none :=
  .ite (fun _ => brings_semicolon) fun _ => .pure fun _ => id

theorem brings_semicolonAndNewline (written : Bool) (move : Move) :
    Brings (Stands fits last) (semicolonAndNewline written move) fun _ => Clear none := by
  unfold semicolonAndNewline
  refine brings_semicolon.bind fun _ => .ite (fun _ => .pure fun _ => id) fun _ => ?_
  exact (brings_newline move).bind fun _ => .pure fun _ => id

theorem brings_setLineEnded (ended : Bool) :
    Brings (Stands fits last) (setLineEnded ended) fun _ => Stands fits last :=
  brings_fields fun _ => rfl

/-- The end of a statement leaves room for everything, unless the statement is exempt from it. -/
theorem brings_terminate (closed : Bool) :
    Brings (Releases tight ending) (terminate closed) fun _ => Releases tight ending := by
  have taken : Brings (Releases tight ending) takeExemption fun _ => Releases tight ending :=
    fun _ releases => releases.fields rfl rfl
  unfold terminate
  refine taken.bind fun exempt => .ite (fun _ page releases => ?_) fun _ => .pure fun _ => id
  have dropped := releases.stands.dropBlanks
  refine .inl ?_
  rw [after_bind, after_bind]
  show Clear none (after _ page.dropBlanks.2)
  split
  · split
    · exact (dropped.newlines (Nat.lt_of_lt_of_le Nat.one_pos (Nat.le_max_right _ _))).forget
    · rename_i brace
      exact (dropped.behindBrace brace).newlinesIf page.dropBlanks.1
    · exact dropped.placeSemicolon.newlines (Nat.lt_of_lt_of_le Nat.one_pos (Nat.le_max_right _ _))
  · rename_i empty
    have empty : ¬(!page.dropBlanks.2.buffer.isEmpty) = true := empty
    exact clear_of_empty (by simpa using empty)

end

end Print

end GmlLayout
