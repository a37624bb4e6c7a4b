import GmlLayout.Proofs.Layout.ExpressionContent

/-!
What the layout of a slot leaves alone, on any page. It takes back nothing but spaces and tabs at the end, so
every text and every line break that has been written keeps its place. A remark that has a line break behind it
in its slot therefore has one right behind it on the page, whatever became of the line breaks in front of it.
-/

namespace GmlLayout

/-- A token with the kind and the text of a token of some source; where it stands, and how far a line break
indents, are free. -/
def Token.Sourced (token : Token) : Prop :=
  ∃ source, ∃ scanned ∈ scan source, scanned.kind = token.kind ∧ scanned.lexeme = token.lexeme

theorem Token.Sourced.shown {token : Token} (sourced : token.Sourced) (visible : token.kind ≠ .newline) :
    token.Shown := by
  obtain ⟨source, scanned, member, kind, lexeme⟩ := sourced
  unfold Token.Shown
  rw [← lexeme]
  apply shown_of_mem_scan scanned member
  rwa [kind]

theorem Fragment.not_indents_newline : ¬Fragment.newline.Indents := by
  rintro (isSpace | isTab)
  · cases isSpace
  · cases isTab

def slotTexts (slot : Trivia) : List String :=
  (slot.filter fun token => !token.isNewline).map Token.lexeme

namespace Buffer

variable {fragment : Fragment} {earlier buffer : Buffer}

theorem suffix_of_cons {last : Fragment} (indents : last.Indents) (firm : ¬fragment.Indents)
    (stands : fragment :: earlier <:+ last :: buffer) : fragment :: earlier <:+ buffer := by
  rcases List.suffix_cons_iff.mp stands with whole | inside
  · cases whole
    exact absurd indents firm
  · exact inside

theorem suffix_dropSpace (firm : ¬fragment.Indents) (stands : fragment :: earlier <:+ buffer) :
    fragment :: earlier <:+ dropSpace buffer := by
  unfold dropSpace
  split
  · split
    · exact stands
    · exact suffix_of_cons (.inl rfl) firm stands
  · exact stands

theorem suffix_dropLine (blank : onBlankLine buffer = true) (firm : ¬fragment.Indents)
    (stands : fragment :: earlier <:+ buffer) : fragment :: earlier <:+ dropLine buffer := by
  fun_induction dropLine buffer with
  | case1 => exact stands
  | case2 first => exact stands
  | case3 before rest => exact stands
  | case4 last before rest other ih =>
    have margin : last.Indents ∧ onBlankLine (before :: rest) = true := by
      cases last with
      | space => exact ⟨.inl rfl, blank⟩
      | tab => exact ⟨.inr rfl, blank⟩
      | newline => exact absurd rfl other
      | text content => cases blank
    apply ih margin.2
    exact suffix_of_cons margin.1 firm stands

inductive EndsIn (content : String) (earlier : Buffer) : Buffer → Prop where
  | bare : EndsIn content earlier (.text content :: earlier)
  | spaced : EndsIn content earlier (.space :: .text content :: earlier)

namespace EndsIn

variable {content : String}

theorem isEmpty_eq_false (ends : EndsIn content earlier buffer) : buffer.isEmpty = false := by
  cases ends <;> rfl

theorem blankLineAbove_eq_false (ends : EndsIn content earlier buffer) : blankLineAbove false buffer = false := by
  cases ends <;> cases earlier <;> rfl

theorem dropSpace_eq (ends : EndsIn content earlier buffer) : dropSpace buffer = .text content :: earlier := by
  cases ends with
  | bare => rfl
  | spaced =>
    have written : onBlankLine (.space :: .text content :: earlier) = false := by
      cases earlier <;> rfl
    unfold dropSpace
    simp [written]

end EndsIn

end Buffer

namespace Page

/-- Every fragment but a space or a tab keeps its place on the later page, with all that stands in front of
it. -/
def Retains (page later : Page) : Prop :=
  ∀ fragment earlier, ¬fragment.Indents → fragment :: earlier <:+ page.buffer →
    fragment :: earlier <:+ later.buffer

theorem Retains.refl (page : Page) : page.Retains page :=
  fun _ _ _ stands => stands

theorem Retains.trans {page later last : Page} (first : page.Retains later) (second : later.Retains last) :
    page.Retains last := by
  intro fragment earlier firm stands
  exact second fragment earlier firm (first fragment earlier firm stands)

theorem Retains.of_suffix {page later : Page} (grows : page.buffer <:+ later.buffer) : page.Retains later :=
  fun _ _ _ stands => stands.trans grows

section

variable (page : Page)

theorem retains_dropSpace : page.Retains page.dropSpace :=
  fun _ _ firm stands => Buffer.suffix_dropSpace firm stands

theorem retains_push (fragment : Fragment) : page.Retains (page.push fragment) :=
  .of_suffix (List.suffix_cons _ _)

theorem retains_startLine : page.Retains (page.dropSpace.push .newline) :=
  page.retains_dropSpace.trans (retains_push _ _)

theorem retains_indent (move : Move) : page.Retains (page.indent move) :=
  .of_suffix (List.suffix_append _ _)

theorem retains_indentTo (indentation : Int) : page.Retains (page.indentTo indentation) :=
  .of_suffix (List.suffix_append _ _)

theorem retains_newline (move : Move) : page.Retains (page.newline move) := by
  unfold newline
  split
  · exact .refl page
  · exact page.retains_startLine.trans (retains_indent _ move)

/-- Also where the author's indentation is taken over, only the margin of a blank line goes. -/
theorem retains_firstBreak (how : Instruction) (hint : Int) : page.Retains (page.firstBreak how hint) := by
  unfold firstBreak
  split
  · by_cases above : page.blankLineAbove = true
    · have blank : page.onBlankLine = true := Buffer.onBlankLine_of_blankLineAbove above
      have dropped : page.Retains page.dropLine := fun _ _ firm stands =>
        Buffer.suffix_dropLine blank firm stands
      simp only [above, if_true]
      exact dropped.trans (retains_indentTo _ hint)
    · simp only [above]
      exact page.retains_startLine.trans (retains_indentTo _ hint)
  · exact page.retains_newline how.move

theorem retains_exemptIf (trailing : Bool) : page.Retains (page.exemptIf trailing) := by
  cases trailing <;> exact .of_suffix List.suffix_rfl

theorem retains_ensureSpace : page.Retains page.ensureSpace := by
  unfold ensureSpace
  split
  · exact .refl page
  · exact page.retains_push .space

theorem retains_write (content : String) (spaceAfter : Bool) : page.Retains (page.write content spaceAfter) := by
  cases spaceAfter with
  | false => exact page.retains_push _
  | true => exact (page.retains_push _).trans (retains_push _ .space)

theorem retains_writeRemark (how : Instruction) (token : Token) : page.Retains (page.writeRemark how token) :=
  ((page.retains_exemptIf how.trailing).trans (retains_ensureSpace _)).trans (retains_write _ _ _)

theorem retains_writeOddity (how : Instruction) (token : Token) : page.Retains (page.writeOddity how token) := by
  have noted : page.Retains { page with oddities := token :: page.oddities } := .of_suffix List.suffix_rfl
  exact (noted.trans (retains_exemptIf _ how.trailing)).trans (retains_write _ token.lexeme true)

end

theorem retains_triviaFrom (how : Instruction) (opening : Opening) (moved : Bool) (slot : Trivia) (page : Page) :
    page.Retains (triviaFrom how opening moved slot page).2 := by
  fun_induction triviaFrom how opening moved slot page with
  | case1 => exact .refl _
  | case2 _ _ _ _ _ ih => exact ih
  | case3 _ _ _ _ _ _ ih => exact ih
  | case4 _ _ _ _ _ ih => exact (retains_newline _ _).trans ih
  | case5 _ _ _ _ _ _ _ ih => exact (retains_firstBreak _ _ _).trans ih
  | case6 _ _ _ _ ih => exact (retains_newline _ _).trans ih
  | case7 _ _ _ _ _ _ ih => exact (retains_firstBreak _ _ _).trans ih
  | case8 _ _ _ _ _ _ _ ih => exact (retains_writeRemark _ _ _).trans ih
  | case9 _ _ _ _ _ _ _ ih => exact (retains_writeOddity _ _ _).trans ih

theorem retains_trivia (page : Page) (slot : Trivia) (how : Instruction) :
    page.Retains (page.trivia slot how).2 := by
  unfold trivia
  split
  · exact .refl page
  · exact retains_triviaFrom how _ false slot page

section

variable (how : Instruction) (opening : Opening) (moved : Bool)

theorem triviaFrom_remark {token : Token} (trivia : token.kind.isTrivia = true)
    (visible : token.isNewline = false) (rest : Trivia) (page : Page) :
    triviaFrom how opening moved (token :: rest) page =
      triviaFrom how .over moved rest (page.writeRemark how token) := by
  have noBreak : ¬token.isNewline = true := by simp [visible]
  cases opening <;> rw [triviaFrom, if_neg noBreak, if_pos trivia]

theorem triviaFrom_over {token : Token} (newline : token.isNewline = true) (rest : Trivia) (page : Page) :
    triviaFrom how .over moved (token :: rest) page = triviaFrom how .over true rest
      (if moved then page.newline .stay else page.firstBreak how token.indentHint) := by
  rw [triviaFrom, if_pos newline]
  cases moved <;> rfl

theorem exists_triviaFrom_cons (token : Token) (page : Page) : ∃ later broken next, ∀ rest,
    triviaFrom how opening moved (token :: rest) page = triviaFrom how later broken rest next := by
  by_cases newline : token.isNewline = true
  · cases opening with
    | collapsing => exact ⟨.collapsing, moved, page, fun rest => by rw [triviaFrom, if_pos newline]⟩
    | pending =>
      by_cases drops : how.leading = .none
      · exact ⟨.collapsing, moved, page, fun rest => by rw [triviaFrom, if_pos newline]; exact if_pos drops⟩
      · refine ⟨.collapsing, true, if moved then page.newline .stay else page.firstBreak how token.indentHint,
          fun rest => ?_⟩
        rw [triviaFrom, if_pos newline]
        cases moved <;> exact if_neg drops
    | _ => exact ⟨.over, true, _, fun rest => triviaFrom_over how moved newline rest page⟩
  · have visible : token.isNewline = false := by simpa using newline
    by_cases trivia : token.kind.isTrivia = true
    · exact ⟨.over, moved, _, fun rest => triviaFrom_remark how opening moved trivia visible rest page⟩
    · refine ⟨if opening = .collapsing then .over else opening, moved, page.writeOddity how token,
        fun rest => ?_⟩
      cases opening <;> rw [triviaFrom, if_neg newline, if_neg trivia]

theorem triviaFrom_append (front rest : Trivia) (page : Page) : ∃ later,
    triviaFrom how opening moved (front ++ rest) page =
      triviaFrom how later (triviaFrom how opening moved front page).1 rest
        (triviaFrom how opening moved front page).2 := by
  induction front generalizing opening moved page with
  | nil => exact ⟨opening, by cases opening <;> rfl⟩
  | cons token front ih =>
    obtain ⟨later, broken, next, step⟩ := exists_triviaFrom_cons how opening moved token page
    rw [List.cons_append, step, step]
    exact ih later broken next

end

section

variable {page : Page} {content : String} {earlier : Buffer}

theorem buffer_startLine (ends : Buffer.EndsIn content earlier page.buffer) :
    (page.dropSpace.push .newline).buffer = .newline :: .text content :: earlier :=
  congrArg (Fragment.newline :: ·) ends.dropSpace_eq

theorem closes_newline (ends : Buffer.EndsIn content earlier page.buffer) (move : Move) :
    .newline :: .text content :: earlier <:+ (page.newline move).buffer := by
  have begun : page.buffer.isEmpty = false := ends.isEmpty_eq_false
  have free : page.blankLineAbove = false := ends.blankLineAbove_eq_false
  unfold newline
  simp only [begun, free, Bool.or_false, Bool.false_eq_true, if_false]
  rw [← buffer_startLine ends]
  exact List.suffix_append _ _

theorem closes_firstBreak (ends : Buffer.EndsIn content earlier page.buffer) (how : Instruction)
    (hint : Int) : .newline :: .text content :: earlier <:+ (page.firstBreak how hint).buffer := by
  have free : page.blankLineAbove = false := ends.blankLineAbove_eq_false
  unfold firstBreak
  split
  · simp only [free, Bool.false_eq_true, if_false]
    rw [← buffer_startLine ends]
    exact List.suffix_append _ _
  · exact closes_newline ends how.move

theorem endsIn_writeRemark (page : Page) (how : Instruction) {token : Token} (shown : token.Shown) :
    Buffer.EndsIn token.lexeme (page.exemptIf how.trailing).ensureSpace.buffer
      (page.writeRemark how token).buffer := by
  unfold writeRemark writeToken write
  rw [show Fragment.ofText token.lexeme = _ from shown]
  split
  · exact .spaced
  · exact .bare

end

theorem kept_all (page : Page) : page.kept (fun _ => true) = page.buffer.ink :=
  List.filter_eq_self.mpr fun _ _ => rfl

section

variable {slot : Trivia} (formed : SlotFormed Token.Sourced slot)

include formed

theorem keptInk_slot : keptInk (fun _ => true) (slotLeaves slot) = slotTexts slot := by
  induction slot with
  | nil => rfl
  | cons token rest ih =>
    rw [keptInk_slot_cons, ih formed.tail]
    unfold slotTexts
    by_cases newline : token.isNewline = true
    · simp [newline]
    · have visible : token.kind ≠ .newline := by simpa [Token.isNewline] using newline
      have shown : token.Shown := (formed token List.mem_cons_self).1.shown visible
      simp [newline, shown.textInk]

theorem ink_triviaFrom (how : Instruction) (opening : Opening) (moved : Bool) (page : Page) :
    (triviaFrom how opening moved slot page).2.buffer.ink = page.buffer.ink ++ slotTexts slot := by
  rw [← kept_all, ← kept_all, ← keptInk_slot formed]
  exact kept_triviaFrom _ page how opening moved slot

theorem ink_trivia (page : Page) (how : Instruction) :
    (page.trivia slot how).2.buffer.ink = page.buffer.ink ++ slotTexts slot := by
  rw [← kept_all, ← kept_all, ← keptInk_slot formed]
  exact kept_trivia _ page slot how

end

/-- A remark with a line break behind it in the slot has one right behind it on the page: the break is written
there, and nothing that comes later takes it back. -/
theorem triviaFrom_closes (how : Instruction) (opening : Opening) (moved : Bool) (page : Page)
    {front rest : Trivia} {remark lineBreak : Token}
    (formed : SlotFormed Token.Sourced (front ++ remark :: lineBreak :: rest))
    (visible : remark.isNewline = false) (newline : lineBreak.isNewline = true) :
    ∃ earlier, .newline :: .text remark.lexeme :: earlier <:+
        (triviaFrom how opening moved (front ++ remark :: lineBreak :: rest) page).2.buffer ∧
      Buffer.ink earlier = page.buffer.ink ++ slotTexts front := by
  have before : SlotFormed Token.Sourced front := fun token member =>
    formed token (List.mem_append_left _ member)
  obtain ⟨sourced, trivia⟩ := formed remark (List.mem_append_right _ List.mem_cons_self)
  have shown : remark.Shown := sourced.shown (by simpa [Token.isNewline] using visible)
  obtain ⟨later, split⟩ := triviaFrom_append how opening moved front (remark :: lineBreak :: rest) page
  let reached := (triviaFrom how opening moved front page).2
  refine ⟨(reached.exemptIf how.trailing).ensureSpace.buffer, ?_, ?_⟩
  · have ends := endsIn_writeRemark reached how shown
    rw [split, triviaFrom_remark how later _ trivia visible, triviaFrom_over how _ newline]
    apply retains_triviaFrom how .over true rest _ _ _ Fragment.not_indents_newline
    split
    · exact closes_newline ends .stay
    · exact closes_firstBreak ends how lineBreak.indentHint
  · calc (reached.exemptIf how.trailing).ensureSpace.buffer.ink
        = (reached.exemptIf how.trailing).ensureSpace.kept (fun _ => true) := (kept_all _).symm
      _ = reached.buffer.ink := by rw [kept_ensureSpace, kept_exemptIf, kept_all]
      _ = page.buffer.ink ++ slotTexts front := ink_triviaFrom before how opening moved page

/-- On any page, the layout of a slot takes back nothing but spaces and tabs and adds the texts of the slot in
order; and right behind every comment, region mark or word `then` that has a line break behind it in the slot,
there is a line break on the page. -/
theorem trivia_closes_remarks (page : Page) {slot : Trivia} (formed : SlotFormed Token.Sourced slot)
    (how : Instruction) :
    page.Retains (page.trivia slot how).2 ∧
      (page.trivia slot how).2.buffer.ink = page.buffer.ink ++ slotTexts slot ∧
      ∀ front remark lineBreak rest, slot = front ++ remark :: lineBreak :: rest →
        remark.isNewline = false → lineBreak.isNewline = true →
          ∃ earlier, .newline :: .text remark.lexeme :: earlier <:+ (page.trivia slot how).2.buffer ∧
            Buffer.ink earlier = page.buffer.ink ++ slotTexts front := by
  refine ⟨page.retains_trivia slot how, ink_trivia formed page how, ?_⟩
  intro front remark lineBreak rest shape visible newline
  have written : (slot.isEmpty || (!how.respect && slot.all Token.isNewline)) = false := by
    simp [shape, visible]
  subst shape
  unfold trivia
  rw [written]
  exact triviaFrom_closes how _ false page formed visible newline

/-- Below a blank line with a margin, a line break takes over the author's indentation; the comment and the word
`then` behind it are closed all the same. -/
theorem trivia_closes_remarks_below_blank_line :
    let page : Page :=
      { settings := {}, buffer := [.space, .tab, .newline, .newline, .text "x"], frames := [0] }
    let slot : Trivia := [⟨.newline, .hint 2, 0, 0⟩, ⟨.lineComment, .text "// a", 1, 8⟩,
      ⟨.newline, .hint 0, 1, 12⟩, ⟨.newline, .hint 0, 2, 0⟩, ⟨.keyword .thenWord, .none, 3, 0⟩,
      ⟨.newline, .hint 0, 3, 4⟩]
    let laid := (page.trivia slot (.respecting .stay .all)).2.buffer
    SlotFormed Token.Sourced slot ∧ .newline :: .newline :: [.text "x"] <:+ laid ∧
      Buffer.ink laid = ["x", "// a", "then"] ∧
      (∃ earlier, .newline :: .text "// a" :: earlier <:+ laid ∧ Buffer.ink earlier = ["x"]) ∧
      ∃ earlier, .newline :: .text "then" :: earlier <:+ laid ∧ Buffer.ink earlier = ["x", "// a"] := by
  intro page slot laid
  have scanned : scan "\n        // a\n\nthen\n" = slot := by decide +kernel
  have formed : SlotFormed Token.Sourced slot := by
    intro token member
    refine ⟨⟨_, token, scanned ▸ member, rfl, rfl⟩, ?_⟩
    revert token
    decide
  obtain ⟨retains, ink, closes⟩ := trivia_closes_remarks page formed (.respecting .stay .all)
  refine ⟨formed, ?_, ink, ?_, ?_⟩
  · exact retains .newline [.newline, .text "x"] Fragment.not_indents_newline ⟨[.space, .tab], rfl⟩
  · exact closes [_] _ _ _ rfl rfl rfl
  · exact closes [_, _, _, _] _ _ _ rfl rfl rfl

end Page

end GmlLayout
