import GmlLayout.Proofs.Layout.Ink
import GmlLayout.Proofs.Layout.Moves
import GmlLayout.Proofs.Token.Completed
import GmlLayout.Proofs.Tree.Separate

/-!
Pages whose texts stay apart. A text is written right behind the last one only if the two stay apart, so
what counts is which texts may come next and which token stands last: spaces and line breaks make room for
everything, and where blanks are taken back, the last token decides.
-/

namespace GmlLayout

section

variable [Account]

/-- Texts that may stand side by side. What is put behind a remark is left out of the account. -/
def Beside (first second : String) : Prop :=
  isRemarkText first = true ∨ (Account.remarks = false ∧ isRemarkText second = true) ∨ Apart first second

theorem Beside.apart {first second : String} (beside : Beside first second)
    (code : isRemarkText first = false ∧ isRemarkText second = false) : Apart first second := by
  obtain remark | ⟨_, remark⟩ | apart := beside
  · rw [code.1] at remark
    cases remark
  · rw [code.2] at remark
    cases remark
  · exact apart

theorem not_beside_of_completes {first second : String} (isNumber : completes first second = true) :
    ¬ Beside first second :=
  fun beside => not_apart_of_completes isNumber (beside.apart (noRemark_of_completes isNumber))

theorem Token.Sound.beside {token : Token} (sound : token.Sound) {next : String}
    (stops : token.stopsBefore next = true) : Beside token.lexeme next :=
  sound.imp id fun apart => .inr (apart next stops)

end

theorem Token.shown_word (word : Keyword) : (ofKind (.keyword word)).Shown := by
  cases word <;> rfl

theorem Token.shown_mark (mark : Symbol) : (ofKind (.symbol mark)).Shown := by
  cases mark <;> rfl

theorem Token.shown_zero : Token.zero.Shown := rfl

theorem Token.sound_zero : Token.zero.Sound := by
  have cut : Cut .number "0".toList [] := .whole rfl (fun _ member => nomatch member) .nil fun _ _ => .nil
  exact .of_cut cut rfl nofun

/-- A remark, or a text that brackets, separators and blanks may be put behind. -/
def Firm (content : String) : Prop :=
  isRemarkText content = true ∨ ∀ next, isDetached next = true → Apart content next

theorem Token.Sound.firm {token : Token} (sound : token.Sound) : Firm token.lexeme :=
  sound.imp id fun apart next detached => apart next (token.stopsBefore_detached detached)

namespace Buffer

section

variable [Account]

def Takes (buffer : Buffer) (next : String) : Prop :=
  ∀ content, buffer.head? = some (.text content) → Beside content next

/-- The text may be written right behind the last text, whatever blanks are dropped. -/
def Bears (buffer : Buffer) (next : String) : Prop :=
  ∀ content, (ink buffer).getLast? = some content → Beside content next

/-- No two texts stand side by side that may not, but for the two parts of a number, and brackets may be put
behind each of them. -/
inductive Parted : Buffer → Prop where
  | nil : Parted []
  | blank {fragment : Fragment} {buffer : Buffer} (isBlank : fragment.isBlank = true) (parted : Parted buffer) :
      Parted (fragment :: buffer)
  | text {content : String} {buffer : Buffer} (firm : Firm content) (takes : Takes buffer content)
      (parted : Parted buffer) : Parted (.text content :: buffer)
  | number {first second : String} {buffer : Buffer} (isNumber : completes first second = true)
      (firm : Firm second) (takes : Takes buffer first) (parted : Parted (.text first :: buffer)) :
      Parted (.text second :: .text first :: buffer)

variable {buffer : Buffer}

theorem takes_blank {fragment : Fragment} (blank : fragment.isBlank = true) (next : String) :
    Takes (fragment :: buffer) next := by
  rintro content ⟨⟩
  cases blank

theorem Bears.takes {next : String} (bears : Bears buffer next) : Takes buffer next := by
  intro content last
  obtain ⟨rest, rfl⟩ := List.head?_eq_some_iff.mp last
  exact bears content (by rw [ink, Fragment.ink, List.getLast?_concat])

namespace Parted

theorem tail {fragment : Fragment} (parted : Parted (fragment :: buffer)) : Parted buffer := by
  cases parted with
  | blank isBlank parted => exact parted
  | text firm takes parted => exact parted
  | number isNumber firm takes parted => exact parted

theorem of_suffix {earlier : Buffer} (parted : Parted buffer) (isSuffix : earlier <:+ buffer) :
    Parted earlier := by
  obtain ⟨later, rfl⟩ := isSuffix
  induction later with
  | nil => exact parted
  | cons fragment later ih => exact ih parted.tail

theorem blanks (parted : Parted buffer) {margin : Buffer}
    (blanks : ∀ fragment ∈ margin, fragment.isBlank = true) : Parted (margin ++ buffer) := by
  induction margin with
  | nil => exact parted
  | cons fragment margin ih =>
    rw [List.forall_mem_cons] at blanks
    exact .blank blanks.1 (ih blanks.2)

theorem firm {content : String} (parted : Parted (.text content :: buffer)) : Firm content := by
  cases parted with
  | blank isBlank => cases isBlank
  | text firm => exact firm
  | number isNumber firm => exact firm

/-- Only the second part of a number stands where there was no room for it. -/
theorem takes {content : String} (parted : Parted (.text content :: buffer))
    (whole : ∀ first, completes first content = false) : Takes buffer content := by
  cases parted with
  | blank isBlank => cases isBlank
  | text firm takes => exact takes
  | @number first _ _ isNumber =>
    rw [whole first] at isNumber
    cases isNumber

theorem takes_severing (parted : Parted buffer) {next : String} (severs : isSevering next = true) :
    Takes buffer next := by
  intro content last
  obtain ⟨rest, rfl⟩ := List.head?_eq_some_iff.mp last
  exact parted.firm.imp id fun apart => .inr (apart next (isDetached_of_isSevering severs))

end Parted

theorem takes_of_onBlankLine (blank : onBlankLine buffer = true) (next : String) : Takes buffer next := by
  rintro content last
  obtain ⟨rest, rfl⟩ := List.head?_eq_some_iff.mp last
  cases rest <;> cases blank

end

variable {buffer : Buffer}

theorem dropSpace_suffix (buffer : Buffer) : buffer.dropSpace <:+ buffer := by
  unfold dropSpace
  split
  · split
    · exact List.suffix_refl _
    · exact List.suffix_cons _ _
  · exact List.suffix_refl _

theorem dropBlanks_suffix (buffer : Buffer) : buffer.dropBlanks.2 <:+ buffer := by
  fun_induction dropBlanks buffer with
  | case1 => exact List.suffix_refl _
  | case2 => exact List.suffix_refl _
  | case3 last before rest blank ih => exact ih.trans (List.suffix_cons _ _)
  | case4 last before rest shown => exact List.suffix_refl _

theorem head?_dropLine_of_onBlankLine (blank : onBlankLine buffer = true) :
    (dropLine buffer).head?.all Fragment.isBlank = true := by
  fun_induction dropLine buffer with
  | case1 => rfl
  | case2 => cases blank
  | case3 before rest => rfl
  | case4 last before rest other ih =>
    cases last with
    | newline => exact absurd rfl other
    | space | tab => exact ih blank
    | text content => cases blank

end Buffer

namespace Page

theorem buffer_closeFrame (page : Page) : page.closeFrame.buffer = page.buffer := by
  unfold Page.closeFrame
  split <;> rfl

section

variable [Account]

/-- A page whose texts stay apart. The texts that fit may be written next, and so may, whatever blanks are
dropped, those that the last token stops before. -/
structure Stands (fits : String → Prop) (last : Option Token) (page : Page) : Prop where
  parted : page.buffer.Parted
  takes : ∀ next, fits next → page.buffer.Takes next
  ends : ∀ token ∈ last, ∀ next, token.stopsBefore next = true → page.buffer.Bears next

abbrev Clear : Option Token → Page → Prop :=
  Stands fun _ => True

variable {fits other : String → Prop} {last : Option Token} {page : Page}

namespace Stands

theorem weaken (stands : page.Stands fits last) (fewer : ∀ next, other next → fits next) :
    page.Stands other last :=
  ⟨stands.parted, fun next fit => stands.takes next (fewer next fit), stands.ends⟩

theorem everywhere (clear : page.Clear last) : page.Stands fits last :=
  clear.weaken fun _ _ => trivial

theorem nowhere (stands : page.Stands fits last) : page.Stands (fun _ => False) last :=
  stands.weaken fun _ => False.elim

theorem forget (stands : page.Stands fits last) : page.Stands fits none :=
  ⟨stands.parted, stands.takes, fun _ member => nomatch member⟩

theorem fields {next : Page} (stands : page.Stands fits last) (same : next.buffer = page.buffer) :
    next.Stands fits last := by
  refine ⟨?_, ?_, ?_⟩
  · rw [same]
    exact stands.parted
  · rw [same]
    exact stands.takes
  · rw [same]
    exact stands.ends

theorem clear {next : Page} (stands : page.Stands fits last) (parted : next.buffer.Parted)
    (ink : next.buffer.ink = page.buffer.ink) (room : next.buffer.head?.all Fragment.isBlank = true) :
    next.Clear last := by
  refine ⟨parted, fun following _ content isText => ?_, fun token member following stops => ?_⟩
  · rw [isText] at room
    cases room
  · rw [Buffer.Bears, ink]
    exact stands.ends token member following stops

theorem drops {next : Page} (stands : page.Stands fits last) (isSuffix : next.buffer <:+ page.buffer)
    (ink : next.buffer.ink = page.buffer.ink) :
    next.Stands (fun text => stopsBefore last (some text) = true) last := by
  have ends : ∀ token ∈ last, ∀ text, token.stopsBefore text = true → next.buffer.Bears text := by
    intro token member text stops
    rw [Buffer.Bears, ink]
    exact stands.ends token member text stops
  refine ⟨stands.parted.of_suffix isSuffix, fun text stops => ?_, ends⟩
  obtain ⟨token, isLast, stops⟩ := Option.any_eq_true _ _ |>.mp stops
  exact (ends token isLast text stops).takes

theorem dropSpace (stands : page.Stands fits last) :
    page.dropSpace.Stands (fun text => stopsBefore last (some text) = true) last :=
  stands.drops page.buffer.dropSpace_suffix page.buffer.ink_dropSpace

theorem dropBlanks (stands : page.Stands fits last) :
    page.dropBlanks.2.Stands (fun text => stopsBefore last (some text) = true) last :=
  stands.drops page.buffer.dropBlanks_suffix page.buffer.ink_dropBlanks

theorem ensureSpace (stands : page.Stands fits last) : page.ensureSpace.Clear last := by
  unfold Page.ensureSpace
  split
  · rename_i blank
    obtain ⟨fragment, isLast, blank⟩ := Option.any_eq_true _ _ |>.mp blank
    have isLast : page.buffer.head? = some fragment := isLast
    exact stands.clear stands.parted rfl (by rw [isLast]; exact blank)
  · exact stands.clear (.blank rfl stands.parted) (List.append_nil _) rfl

theorem breakLine (stands : page.Stands fits last) {margin earlier : Buffer}
    (blanks : ∀ fragment ∈ margin, fragment.isBlank = true) (isSuffix : earlier <:+ page.buffer)
    (ink : earlier.ink = page.buffer.ink) {next : Page}
    (shape : next.buffer = margin ++ .newline :: earlier) : next.Clear last := by
  have kept : Buffer.ink (.newline :: earlier) = page.buffer.ink := (List.append_nil _).trans ink
  have whole : earlier.Parted := stands.parted.of_suffix isSuffix
  have broken : Buffer.Parted (.newline :: earlier) := .blank rfl whole
  refine stands.clear ?_ ?_ ?_
  · rw [shape]
    exact broken.blanks blanks
  · rw [shape, Buffer.ink_append, Buffer.ink_blanks blanks, List.append_nil, kept]
  · rw [shape]
    cases margin with
    | nil => rfl
    | cons fragment margin => exact blanks fragment List.mem_cons_self

theorem newline (stands : page.Stands fits last) (move : Move) : (page.newline move).Clear last := by
  unfold Page.newline
  split
  · rename_i kept
    rw [Bool.or_eq_true, List.isEmpty_iff] at kept
    refine ⟨stands.parted, fun next _ => ?_, stands.ends⟩
    obtain none | above := kept
    · rw [none]
      exact fun _ last => nomatch last
    · exact Buffer.takes_of_onBlankLine (Buffer.onBlankLine_of_blankLineAbove above) next
  · exact stands.breakLine (Page.isBlank_of_mem_margin _) page.buffer.dropSpace_suffix
      page.buffer.ink_dropSpace rfl

theorem newlines (stands : page.Stands fits last) {count : Nat} (some : 0 < count) :
    (page.newlines count).Clear last := by
  induction count generalizing page fits with
  | zero => cases some
  | succ count ih =>
    have broken := stands.newline .stay
    cases count with
    | zero => exact broken
    | succ count => exact ih broken (Nat.succ_pos _)

theorem dropLine (stands : page.Stands fits last) (blank : page.onBlankLine = true) :
    page.dropLine.Clear last := by
  obtain isSuffix := Buffer.dropLine_suffix page.buffer
  exact stands.clear (stands.parted.of_suffix isSuffix) (Buffer.ink_dropLine_of_onBlankLine blank)
    (Buffer.head?_dropLine_of_onBlankLine blank)

theorem writeMargin (clear : page.Clear last) : page.writeMargin.Clear last := by
  have blanks := page.isBlank_of_mem_margin
  refine ⟨clear.parted.blanks blanks, fun next _ => ?_, ?_⟩
  · show Buffer.Takes (page.margin ++ page.buffer) next
    generalize page.margin = margin at blanks
    cases margin with
    | nil => exact clear.takes next trivial
    | cons fragment margin => exact Buffer.takes_blank (blanks fragment List.mem_cons_self) next
  · have same : page.writeMargin.buffer.ink = page.buffer.ink := by
      show Buffer.ink (page.margin ++ page.buffer) = _
      rw [Buffer.ink_append, ink_margin, List.append_nil]
    intro token member next stops
    rw [Buffer.Bears, same]
    exact clear.ends token member next stops

theorem firstBreak (stands : page.Stands fits last) (how : Instruction) (hint : Int) :
    (page.firstBreak how hint).Clear last := by
  unfold Page.firstBreak
  split
  · split
    · rename_i above
      have dropped := stands.dropLine (Buffer.onBlankLine_of_blankLineAbove above)
      exact @writeMargin _ _ { page.dropLine with indentation := hint } (dropped.fields rfl)
    · exact stands.breakLine (Page.isBlank_of_mem_margin _) page.buffer.dropSpace_suffix
        page.buffer.ink_dropSpace rfl
  · exact stands.newline how.move

theorem of_inert (stands : page.Stands fits last) (inert : last.any Token.isInert = true) :
    page.Clear last := by
  obtain ⟨token, isLast, inert⟩ := Option.any_eq_true _ _ |>.mp inert
  refine ⟨stands.parted, fun next _ => ?_, stands.ends⟩
  exact (stands.ends token isLast next (Token.stopsBefore_inert inert next)).takes

theorem admitted {tight : Bool} (stands : page.Stands (fun _ => tight = false) last) :
    page.Stands (fun text => (!tight || stopsBefore last (some text)) = true) last := by
  refine ⟨stands.parted, fun next admits => ?_, stands.ends⟩
  cases tight with
  | false => exact stands.takes next rfl
  | true =>
    obtain ⟨token, isLast, stops⟩ := Option.any_eq_true _ _ |>.mp admits
    exact (stands.ends token isLast next stops).takes

theorem of_written {token : Token} (parted : Buffer.Parted (.text token.lexeme :: page.buffer))
    (shown : token.Shown) (sound : token.Sound) (spaceAfter : Bool) : (page.writeToken token spaceAfter).Stands
      (fun next => spaceAfter = true ∨ stopsBefore (some token) (some next) = true) (some token) := by
  have bears : ∀ next, token.stopsBefore next = true → Buffer.Bears (.text token.lexeme :: page.buffer) next := by
    intro next stops content isLast
    rw [Buffer.ink, Fragment.ink, List.getLast?_concat] at isLast
    cases isLast
    exact sound.beside stops
  unfold Page.writeToken Page.write
  rw [shown]
  cases spaceAfter with
  | true =>
    refine ⟨.blank rfl parted, fun next _ => Buffer.takes_blank rfl next, ?_⟩
    rintro _ ⟨⟩ next stops
    have same : Buffer.ink (.space :: .text token.lexeme :: page.buffer) =
        Buffer.ink (.text token.lexeme :: page.buffer) := List.append_nil _
    show Buffer.Bears (.space :: .text token.lexeme :: page.buffer) next
    rw [Buffer.Bears, same]
    exact bears next stops
  | false =>
    refine ⟨parted, fun next allowed => (bears next ?_).takes, ?_⟩
    · exact allowed.resolve_left Bool.false_ne_true
    · rintro _ ⟨⟩ next stops
      exact bears next stops

theorem writeToken (stands : page.Stands fits last) {token : Token} (shown : token.Shown)
    (sound : token.Sound) (allowed : fits token.lexeme ∨ isSevering token.lexeme = true) (spaceAfter : Bool) :
    (page.writeToken token spaceAfter).Stands
      (fun next => spaceAfter = true ∨ stopsBefore (some token) (some next) = true) (some token) := by
  have takes : page.buffer.Takes token.lexeme := by
    obtain fit | severs := allowed
    · exact stands.takes _ fit
    · exact stands.parted.takes_severing severs
  exact of_written (.text sound.firm takes stands.parted) shown sound spaceAfter

end Stands

/-- The first part of a number stands last, where there was room for it. -/
def Halved (first : String) (page : Page) : Prop :=
  ∃ earlier, page.buffer = .text first :: earlier ∧ Buffer.Takes earlier first ∧
    Buffer.Parted (.text first :: earlier)

theorem Stands.writeHalf (stands : page.Stands fits last) {token : Token} (shown : token.Shown)
    (sound : token.Sound) (allowed : fits token.lexeme) :
    (page.writeToken token false).Halved token.lexeme := by
  have takes := stands.takes _ allowed
  refine ⟨page.buffer, ?_, takes, .text sound.firm takes stands.parted⟩
  unfold Page.writeToken Page.write
  rw [shown]
  rfl

theorem Halved.complete {first : String} (halved : page.Halved first) {second : Token} (shown : second.Shown)
    (sound : second.Sound) (isNumber : completes first second.lexeme = true) :
    (page.writeToken second true).Clear (some second) := by
  obtain ⟨earlier, shape, takes, parted⟩ := halved
  have whole : Buffer.Parted (.text second.lexeme :: page.buffer) := by
    rw [shape]
    exact .number isNumber sound.firm takes parted
  exact (Stands.of_written whole shown sound true).weaken fun _ _ => .inl rfl

end

end Page

/-! Slots of trivia. -/

structure Token.Proper (token : Token) : Prop where
  shown : token.Shown
  sound : token.Sound
  fixed : token.kind.carriesText = false → token.lexeme = token.kind.fixedText
  remark : isRemarkText token.lexeme = token.kind.isRemark
  startDot : token.kind = .numberStartDot → completes "0" token.lexeme = true
  endDot : token.kind = .numberEndDot → completes token.lexeme "0" = true

theorem slotEnding_cons (token : Token) (rest : Trivia) (last : Option Token) :
    slotEnding (token :: rest) last = slotEnding rest (slotEnding [token] last) := by
  by_cases here : token.isThen = true
  · simp [slotEnding, here]
  · simp [slotEnding, here]

namespace Page.Stands

variable [Account] {fits : String → Prop} {last : Option Token} {page : Page}

theorem remark (stands : page.Stands fits last) {token : Token} (shown : token.Shown)
    (remark : isRemarkText token.lexeme = true) (allowed : Account.remarks = true → fits token.lexeme)
    (spaceAfter : Bool) (other : Option Token) : (page.writeToken token spaceAfter).Clear other := by
  have takes : page.buffer.Takes token.lexeme := by
    cases counts : Account.remarks with
    | true => exact stands.takes _ (allowed counts)
    | false => exact fun _ _ => .inr (.inl ⟨counts, remark⟩)
  have parted : Buffer.Parted (.text token.lexeme :: page.buffer) := .text (.inl remark) takes stands.parted
  have ink : ∀ {buffer : Buffer}, buffer.ink = page.buffer.ink ++ [token.lexeme] → ∀ next, buffer.Bears next := by
    intro buffer same next content isLast
    rw [same, List.getLast?_concat] at isLast
    cases isLast
    exact .inl remark
  unfold Page.writeToken Page.write
  rw [shown]
  cases spaceAfter with
  | true =>
    have bears := @ink (.space :: .text token.lexeme :: page.buffer) (List.append_nil _)
    exact ⟨.blank rfl parted, fun next _ => (bears next).takes, fun _ _ next _ => bears next⟩
  | false =>
    have bears := @ink (.text token.lexeme :: page.buffer) rfl
    exact ⟨parted, fun next _ => (bears next).takes, fun _ _ next _ => bears next⟩

theorem writeRemark (stands : page.Stands fits last) (how : Instruction) {token : Token}
    (proper : token.Proper) (isTrivia : token.kind.isTrivia = true) (visible : token.kind ≠ .newline) :
    (page.writeRemark how token).Clear (slotEnding [token] last) := by
  have exempted : (page.exemptIf how.trailing).Stands fits last := by
    refine stands.fields ?_
    unfold Page.exemptIf
    split <;> rfl
  have spaced := exempted.ensureSpace
  by_cases isThen : token.kind = .keyword .thenWord
  · have lexeme : token.lexeme = Keyword.thenWord.text := by
      rw [proper.fixed (by rw [isThen]; rfl), isThen]
      rfl
    have same : slotEnding [token] last = some (.ofKind (.keyword .thenWord)) := by
      simp [slotEnding, Token.isThen, isThen]
    have alike : ∀ next, (Token.ofKind (.keyword .thenWord)).stopsBefore next = token.stopsBefore next := by
      intro next
      rw [Token.stopsBefore, Token.stopsBefore, isThen, lexeme]
      rfl
    have written := spaced.writeToken proper.shown proper.sound (.inl trivial) true
    unfold Page.writeRemark
    simp only [isThen, ne_eq, reduceCtorEq, not_false_eq_true, and_self, decide_true]
    refine ⟨written.parted, fun next _ => written.takes next (.inl rfl), ?_⟩
    rw [same]
    rintro _ ⟨⟩ next stops
    exact written.ends token rfl next (by rw [← alike]; exact stops)
  · have isRemark : isRemarkText token.lexeme = true := by
      rw [proper.remark]
      revert isTrivia isThen visible
      generalize token.kind = kind
      intro isTrivia visible isThen
      cases kind with
      | keyword word => cases word <;> first | exact absurd rfl isThen | cases isTrivia
      | newline => exact absurd rfl visible
      | lineComment | blockComment | regionBegin | regionEnd => rfl
      | _ => cases isTrivia
    exact spaced.remark proper.shown isRemark (fun _ => trivial) _ _

variable {drawn : Token → Prop} (proper : ∀ token, drawn token → token.kind ≠ .newline → token.Proper)

include proper

/-- Whatever could be written in front of a slot can be written behind it; behind a line break,
everything can. -/
theorem triviaFrom {how : Instruction} {opening : Opening} {moved : Bool} {slot : Trivia}
    (stands : page.Stands (fun next => moved = true ∨ fits next) last) (formed : SlotFormed drawn slot) :
    (Page.triviaFrom how opening moved slot page).2.Stands
      (fun next => (Page.triviaFrom how opening moved slot page).1 = true ∨ fits next)
      (slotEnding slot last) := by
  induction slot generalizing opening moved page last with
  | nil => exact stands
  | cons token rest ih =>
    obtain ⟨isDrawn, isTrivia⟩ := formed token List.mem_cons_self
    have later := formed.tail
    rw [slotEnding_cons]
    unfold Page.triviaFrom
    by_cases broken : token.isNewline = true
    · have unchanged : slotEnding [token] last = last := by
        have isBreak : token.kind = .newline := by simpa [Token.isNewline] using broken
        simp [slotEnding, Token.isThen, isBreak]
      have freed : ∀ {next : Page}, next.Clear last →
          next.Stands (fun text => true = true ∨ fits text) (slotEnding [token] last) := by
        intro next clear
        rw [unchanged]
        exact clear.weaken fun _ _ => trivial
      rw [if_pos broken]
      cases opening
      case collapsing => exact ih (by rw [unchanged]; exact stands) later
      case pending =>
        simp only
        split
        · exact ih (by rw [unchanged]; exact stands) later
        · split
          · exact ih (freed (stands.newline .stay)) later
          · exact ih (freed (stands.firstBreak how _)) later
      · simp only
        split
        · exact ih (freed (stands.newline .stay)) later
        · exact ih (freed (stands.firstBreak how _)) later
    · have visible : token.kind ≠ .newline := by simpa [Token.isNewline] using broken
      rw [if_neg broken, if_pos isTrivia]
      have written := stands.writeRemark how (proper token isDrawn visible) isTrivia visible
      exact ih (written.weaken fun _ _ => trivial) later

theorem trivia (stands : page.Stands fits last) {slot : Trivia} (formed : SlotFormed drawn slot)
    (how : Instruction) :
    (page.trivia slot how).2.Stands (fun next => (page.trivia slot how).1 = true ∨ fits next)
      (slotEnding slot last) := by
  unfold Page.trivia
  split
  · rename_i passed
    have unchanged : slotEnding slot last = last := by
      have breaks : slot.all Token.isNewline = true := by
        rw [Bool.or_eq_true, Bool.and_eq_true, List.isEmpty_iff] at passed
        obtain rfl | ⟨_, breaks⟩ := passed
        · rfl
        · exact breaks
      have noThen : slot.any Token.isThen = false := by
        rw [List.any_eq_false]
        intro token member
        have isBreak : token.kind = .newline := by
          simpa [Token.isNewline] using List.all_eq_true.mp breaks token member
        simp [Token.isThen, isBreak]
      rw [slotEnding, noThen]
      rfl
    rw [unchanged]
    exact stands.weaken fun next fit => fit.resolve_left Bool.false_ne_true
  · exact triviaFrom proper (stands.weaken fun next fit => fit.resolve_left Bool.false_ne_true) formed

end Page.Stands

end GmlLayout
