import GmlLayout.Proofs.Layout.Ink
import GmlLayout.Proofs.Layout.Neat
import GmlLayout.Proofs.Tree.Formed

/-!
Steps of a layout that keep the normal form and do not depend on the settings. The same step is taken on a
page whose margins are tabs and on that page under any other settings: it finds its way there by the line
breaks among the last blanks, which are the same on both, so it ends on corresponding pages again.
-/

namespace GmlLayout

open Buffer (Neat)

namespace Settings

def blank (settings : Settings) : Fragment :=
  if settings.useSpaces then .space else .tab

def unit (settings : Settings) : List Fragment :=
  if settings.useSpaces then List.replicate settings.spaceSize .space else [.tab]

theorem blank_indents (settings : Settings) : settings.blank.Indents := by
  unfold blank
  split
  · exact .inl rfl
  · exact .inr rfl

theorem eq_blank_of_mem_unit (settings : Settings) : ∀ fragment ∈ settings.unit, fragment = settings.blank := by
  unfold unit blank
  intro fragment member
  split
  · rw [if_pos ‹_›] at member
    exact List.eq_of_mem_replicate member
  · rw [if_neg ‹_›] at member
    exact List.mem_singleton.mp member

end Settings

namespace Page

def under (page : Page) (settings : Settings) : Page :=
  { page with settings := settings, buffer := page.buffer.spread settings.unit }

/-- A page with tabs for margins whose blanks are in normal form. On a page without text no statement
has ended a line. -/
structure Tidy (page : Page) : Prop where
  tabs : page.settings.useSpaces = false
  neat : Neat .tab page.buffer
  ended : page.lineEnded = true → page.buffer ≠ []

def Begun (page : Page) : Prop :=
  page.buffer ≠ []

def Broken (page : Page) : Prop :=
  .newline ∈ page.buffer

def Settled (page : Page) : Prop :=
  page.buffer.Settled

structure Kept (before after : Page) : Prop where
  tidy : after.Tidy
  begun : before.Begun → after.Begun
  settled : before.Settled → after.Settled

theorem Tidy.kept {page : Page} (tidy : page.Tidy) : Kept page page :=
  ⟨tidy, id, id⟩

theorem Kept.trans {before middle after : Page} (first : Kept before middle) (second : Kept middle after) :
    Kept before after :=
  ⟨second.tidy, second.begun ∘ first.begun, second.settled ∘ first.settled⟩

/-- A step from the given page keeps what is to be kept, and the settings have no part in it. -/
structure Moves (change : Page → Page) (page : Page) : Prop where
  kept : Kept page (change page)
  under : ∀ settings, change (page.under settings) = (change page).under settings

namespace Moves

variable {change next : Page → Page} {page : Page}

theorem trans (first : Moves change page) (second : Moves next (change page)) :
    Moves (fun page => next (change page)) page :=
  ⟨first.kept.trans second.kept, fun settings => by rw [first.under, second.under]⟩

theorem refl (tidy : page.Tidy) : Moves (fun page => page) page :=
  ⟨tidy.kept, fun _ => rfl⟩

theorem fields (tidy : page.Tidy) (settings : (change page).settings = page.settings)
    (buffer : (change page).buffer = page.buffer)
    (ended : (change page).lineEnded = true → page.lineEnded = true ∨ page.Begun)
    (under : ∀ settings, change (page.under settings) = (change page).under settings) :
    Moves change page := by
  refine ⟨⟨⟨by rw [settings]; exact tidy.tabs, by rw [buffer]; exact tidy.neat, fun isEnded => ?_⟩, ?_, ?_⟩,
    under⟩
  · rw [buffer]
    exact (ended isEnded).elim tidy.ended id
  · unfold Begun
    rw [buffer]
    exact id
  · unfold Settled
    rw [buffer]
    exact id

theorem rewrites (change : Buffer → Buffer) (tidy : page.Tidy) (neat : Neat .tab (change page.buffer))
    (begun : page.Begun → change page.buffer ≠ [])
    (settled : page.Settled → (change page.buffer).Settled)
    (spread : ∀ settings : Settings, change (page.buffer.spread settings.unit) =
      (change page.buffer).spread settings.unit) :
    Moves (fun page => { page with buffer := change page.buffer }) page := by
  refine ⟨⟨⟨tidy.tabs, neat, fun isEnded => begun (tidy.ended isEnded)⟩, begun, settled⟩, fun settings => ?_⟩
  simp only [Page.under, spread]

theorem ite (test : Page → Bool) (same : ∀ settings, test (page.under settings) = test page)
    (yes : test page = true → Moves change page) (no : test page = false → Moves next page) :
    Moves (fun page => if test page then change page else next page) page := by
  cases way : test page with
  | true =>
    refine ⟨?_, fun settings => ?_⟩
    · simp only [way, if_true]
      exact (yes way).kept
    · simp only [same, way, if_true]
      exact (yes way).under settings
  | false =>
    refine ⟨?_, fun settings => ?_⟩
    · simp only [way, Bool.false_eq_true, if_false]
      exact (no way).kept
    · simp only [same, way, Bool.false_eq_true, if_false]
      exact (no way).under settings

end Moves

section

variable {page : Page} (tidy : page.Tidy)

include tidy

theorem moves_pushText (content : String) : Moves (fun page => page.push (.text content)) page :=
  .rewrites _ tidy (.text content tidy.neat) (fun _ => List.cons_ne_nil _ _) (fun settled => settled.push _)
    fun _ => rfl

theorem moves_dropSpace : Moves dropSpace page := by
  refine .rewrites _ tidy tidy.neat.dropSpace (fun begun => (tidy.neat.breakable_dropSpace begun).ne_nil)
    (fun settled => settled.dropSpace) fun settings => ?_
  exact Buffer.dropSpace_spread settings.eq_blank_of_mem_unit settings.blank_indents tidy.neat

theorem moves_dropBlanks : Moves (fun page => page.dropBlanks.2) page := by
  have dropped : (Buffer.dropBlanks page.buffer).2 = page.buffer.dropWhile Fragment.isBlank := by
    rw [tidy.neat.dropBlanks_eq]
  refine .rewrites (fun buffer => (Buffer.dropBlanks buffer).2) tidy ?_ ?_ ?_ ?_
  · rw [dropped]
    exact tidy.neat.dropWhile _
  · rw [dropped]
    exact tidy.neat.dropBlanks_ne_nil
  · rw [dropped]
    exact fun settled => settled.dropBlanks
  · intro settings
    rw [Buffer.dropBlanks_spread settings.eq_blank_of_mem_unit settings.blank_indents tidy.neat]

theorem dropBlanks_under (settings : Settings) :
    (page.under settings).dropBlanks.1 = page.dropBlanks.1 := by
  show (Buffer.dropBlanks (page.buffer.spread settings.unit)).1 = _
  rw [Buffer.dropBlanks_spread settings.eq_blank_of_mem_unit settings.blank_indents tidy.neat]
  rfl

theorem onBlankLine_under (settings : Settings) : (page.under settings).onBlankLine = page.onBlankLine :=
  Buffer.onBlankLine_spread settings.eq_blank_of_mem_unit settings.blank_indents tidy.neat

theorem blankLineAbove_under (settings : Settings) :
    (page.under settings).blankLineAbove = page.blankLineAbove :=
  Buffer.blankLineAbove_spread settings.eq_blank_of_mem_unit settings.blank_indents tidy.neat false

theorem isEmpty_under (settings : Settings) :
    (page.under settings).buffer.isEmpty = page.buffer.isEmpty := by
  cases empty : page.buffer.isEmpty with
  | true =>
    rw [List.isEmpty_iff] at empty
    simp [under, empty]
  | false =>
    have begun : page.buffer ≠ [] := by simpa using empty
    have spread := Buffer.spread_ne_nil settings.eq_blank_of_mem_unit settings.blank_indents tidy.neat begun
    simpa [under] using spread

theorem last?_isBlank_under (settings : Settings) :
    (page.under settings).last?.any Fragment.isBlank = page.last?.any Fragment.isBlank :=
  Buffer.head?_isBlank_spread settings.eq_blank_of_mem_unit settings.blank_indents tidy.neat

theorem last?_eq_text_under (settings : Settings) (content : String) :
    (page.under settings).last? = some (.text content) ↔ page.last? = some (.text content) :=
  Buffer.head?_eq_text_spread settings.eq_blank_of_mem_unit settings.blank_indents tidy.neat content

theorem moves_ensureSpace (begun : page.Begun) : Moves ensureSpace page := by
  refine .ite _ (last?_isBlank_under tidy) (fun _ => .refl tidy) fun shown => ?_
  refine .rewrites _ tidy ?_ (fun _ => List.cons_ne_nil _ _) (fun settled => settled.push _) fun _ => rfl
  have neat := tidy.neat
  unfold Begun at begun
  unfold last? at shown
  cases shape : page.buffer with
  | nil => exact absurd shape begun
  | cons fragment earlier =>
    rw [shape] at neat shown
    cases fragment with
    | text content => exact .space neat
    | _ => cases shown

theorem margin_eq : page.margin = List.replicate page.indentation.toNat .tab := by
  have unit : page.unit = [.tab] := by simp [Page.unit, tidy.tabs]
  unfold margin
  rw [unit, List.flatten_replicate_singleton]

theorem margin_under (settings : Settings) :
    (page.under settings).margin = Buffer.spread settings.unit page.margin := by
  rw [margin_eq tidy]
  show (List.replicate page.indentation.toNat settings.unit).flatten = _
  induction page.indentation.toNat with
  | zero => rfl
  | succ count ih => rw [List.replicate_succ, List.flatten_cons, ih, List.replicate_succ]; rfl

theorem moves_writeMargin (below : 0 < page.buffer.breaks) : Moves writeMargin page := by
  have margin := margin_eq tidy
  have tabs : ∀ fragment ∈ page.margin, fragment = .tab := by
    rw [margin]
    exact fun fragment member => List.eq_of_mem_replicate member
  have laid := (tidy.neat.append_margin below tabs (.inr rfl)).1
  refine ⟨⟨⟨tidy.tabs, laid, fun _ => ?_⟩, fun _ => ?_, fun settled => settled.append _⟩, fun settings => ?_⟩
  · exact List.append_ne_nil_of_right_ne_nil _ (Buffer.ne_nil_of_breaks below)
  · exact List.append_ne_nil_of_right_ne_nil _ (Buffer.ne_nil_of_breaks below)
  · have spread := margin_under tidy settings
    unfold writeMargin
    rw [spread]
    simp only [under, Buffer.spread_append]

theorem moves_setIndentation (move : Move) : Moves (fun page => page.setIndentation move) page :=
  .fields tidy rfl rfl .inl fun _ => rfl

theorem moves_indent (below : 0 < page.buffer.breaks) (move : Move) :
    Moves (fun page => page.indent move) page :=
  (moves_setIndentation tidy move).trans (moves_writeMargin (moves_setIndentation tidy move).kept.tidy below)

theorem moves_indentTo (below : 0 < page.buffer.breaks) (indentation : Int) :
    Moves (fun page => page.indentTo indentation) page := by
  have sets : Moves (fun page => { page with indentation := indentation }) page :=
    .fields tidy rfl rfl .inl fun _ => rfl
  exact sets.trans (moves_writeMargin sets.kept.tidy below)

theorem moves_startLine (begun : page.Begun) (few : page.buffer.breaks ≤ 1) :
    Moves (fun page => page.dropSpace.push .newline) page := by
  have dropped := moves_dropSpace tidy
  refine dropped.trans (.rewrites _ dropped.kept.tidy (tidy.neat.push_newline begun few)
    (fun _ => List.cons_ne_nil _ _) (fun settled => settled.push _) fun _ => rfl)

theorem blankLineAbove_iff : page.blankLineAbove = true ↔ 2 ≤ page.buffer.breaks :=
  tidy.neat.blankLineAbove_iff false

theorem moves_newline (move : Move) : Moves (fun page => page.newline move) page := by
  refine .ite (fun page => page.buffer.isEmpty || page.blankLineAbove) (fun settings => ?_)
    (fun _ => .refl tidy) fun breaks => ?_
  · rw [isEmpty_under tidy, blankLineAbove_under tidy]
  · rw [Bool.or_eq_false_iff] at breaks
    have begun : page.Begun := by simpa [Begun] using breaks.1
    have few : ¬ 2 ≤ page.buffer.breaks := by
      rw [← blankLineAbove_iff tidy, breaks.2]
      exact Bool.false_ne_true
    have starts := moves_startLine tidy begun (by omega)
    exact starts.trans (moves_indent starts.kept.tidy (Nat.succ_pos _) move)

theorem broken_newline (begun : page.Begun) (move : Move) : (page.newline move).Broken := by
  unfold newline
  split
  · rename_i stays
    rw [Bool.or_eq_true, List.isEmpty_iff, blankLineAbove_iff tidy] at stays
    obtain none | above := stays
    · exact absurd none begun
    · exact Buffer.newline_mem_of_breaks (by omega)
  · exact List.mem_append_right _ List.mem_cons_self

theorem moves_newlines (count : Nat) : Moves (fun page => page.newlines count) page := by
  induction count generalizing page with
  | zero => exact .refl tidy
  | succ count ih =>
    have first := moves_newline tidy .stay
    exact first.trans (ih first.kept.tidy)

theorem moves_dropLine (below : 0 < page.buffer.breaks) : Moves dropLine page :=
  .rewrites _ tidy tidy.neat.dropLine Buffer.dropLine_ne_nil (fun settled => settled.dropLine below)
    fun settings => Buffer.dropLine_spread settings.eq_blank_of_mem_unit settings.blank_indents tidy.neat

theorem breaks_pos (begun : page.Begun) (blank : page.onBlankLine = true) : 0 < page.buffer.breaks :=
  (tidy.neat.onBlankLine_iff.mp blank).resolve_left begun

theorem breaks_dropLine (broken : page.Broken) : 0 < page.dropLine.buffer.breaks :=
  tidy.neat.breaks_dropLine broken

theorem moves_stepBack (begun : page.Begun) :
    Moves (fun page => if page.onBlankLine then page.dropLine.indent .left else page.newline .left) page := by
  refine .ite _ (onBlankLine_under tidy) (fun blank => ?_) fun _ => moves_newline tidy .left
  have below := breaks_pos tidy begun blank
  have dropped := moves_dropLine tidy below
  have ends := breaks_dropLine tidy (Buffer.newline_mem_of_breaks below)
  exact dropped.trans (moves_indent dropped.kept.tidy ends .left)

theorem moves_emptyLine (begun : page.Begun) :
    Moves (fun page => if page.blankLineAbove then page.dropLine else page.dropSpace.push .newline) page := by
  refine .ite _ (blankLineAbove_under tidy) (fun above => ?_) fun few => ?_
  · have two := (blankLineAbove_iff tidy).mp above
    exact moves_dropLine tidy (by omega)
  · have few : ¬ 2 ≤ page.buffer.breaks := by
      rw [← blankLineAbove_iff tidy, few]
      exact Bool.false_ne_true
    exact moves_startLine tidy begun (by omega)

theorem breaks_emptyLine :
    0 < (if page.blankLineAbove then page.dropLine else page.dropSpace.push .newline).buffer.breaks := by
  split
  · rename_i above
    have two := (blankLineAbove_iff tidy).mp above
    exact breaks_dropLine tidy (Buffer.newline_mem_of_breaks (by omega))
  · exact Nat.succ_pos _

theorem moves_firstBreak (begun : page.Begun) (how : Instruction) (hint : Int) :
    Moves (fun page => page.firstBreak how hint) page := by
  refine .ite (fun page => !page.frames.isEmpty && how.respect && hint ≥ page.indentationAfter how.move)
    (fun _ => rfl) (fun _ => ?_) fun _ => moves_newline tidy how.move
  have opens := moves_emptyLine tidy begun
  exact opens.trans (moves_indentTo opens.kept.tidy (breaks_emptyLine tidy) hint)

theorem broken_firstBreak (begun : page.Begun) (how : Instruction) (hint : Int) :
    (page.firstBreak how hint).Broken := by
  unfold firstBreak
  split
  · exact List.mem_append_right _ (Buffer.newline_mem_of_breaks (breaks_emptyLine tidy))
  · exact broken_newline tidy begun how.move

theorem moves_exemptIf (trailing : Bool) : Moves (fun page => page.exemptIf trailing) page := by
  unfold exemptIf
  cases trailing with
  | true => exact .fields tidy rfl rfl .inl fun _ => rfl
  | false => exact .refl tidy

theorem moves_write {content : String} (shown : Fragment.ofText content = .text content)
    (spaceAfter : Bool) : Moves (fun page => page.write content spaceAfter) page := by
  have text := moves_pushText tidy content
  unfold write
  rw [shown]
  cases spaceAfter with
  | false => exact text
  | true =>
    refine text.trans (.rewrites _ text.kept.tidy ?_ (fun _ => List.cons_ne_nil _ _)
      (fun settled => settled.push _) fun _ => rfl)
    exact .space (.text content tidy.neat)

omit tidy in
theorem begun_write (content : String) (spaceAfter : Bool) : (page.write content spaceAfter).Begun := by
  unfold write Begun
  cases spaceAfter <;> exact List.cons_ne_nil _ _

omit tidy in
theorem broken_write (broken : page.Broken) (content : String) (spaceAfter : Bool) :
    (page.write content spaceAfter).Broken := by
  unfold write
  cases spaceAfter with
  | false => exact List.mem_cons_of_mem _ broken
  | true => exact List.mem_cons_of_mem _ (List.mem_cons_of_mem _ broken)

end

end Page

def Token.Shown (token : Token) : Prop :=
  Fragment.ofText token.lexeme = .text token.lexeme

namespace Page

/-- A step that also gives a value, which is the same under all settings. -/
structure MovesTo {α : Type} (step : Page → α × Page) (page : Page) : Prop where
  kept : Kept page (step page).2
  under : ∀ settings, step (page.under settings) = ((step page).1, (step page).2.under settings)

theorem Moves.then {α : Type} {change : Page → Page} {step : Page → α × Page} {page : Page}
    (first : Moves change page) (second : MovesTo step (change page)) :
    MovesTo (fun page => step (change page)) page :=
  ⟨first.kept.trans second.kept, fun settings => by rw [first.under, second.under]⟩

section

variable {page : Page}

theorem moves_writeRemark (tidy : page.Tidy) (begun : page.Begun) (how : Instruction) {token : Token}
    (shown : token.Shown) : Moves (fun page => page.writeRemark how token) page := by
  have exempts := moves_exemptIf tidy how.trailing
  have spaces := exempts.trans (moves_ensureSpace exempts.kept.tidy (exempts.kept.begun begun))
  exact spaces.trans (moves_write spaces.kept.tidy shown _)

theorem broken_writeRemark (broken : page.Broken) (how : Instruction) (token : Token) :
    (page.writeRemark how token).Broken := by
  have exempt : (page.exemptIf how.trailing).Broken := by
    unfold exemptIf
    split <;> exact broken
  have spaced : (page.exemptIf how.trailing).ensureSpace.Broken := by
    unfold ensureSpace
    split
    · exact exempt
    · exact List.mem_cons_of_mem _ exempt
  exact broken_write spaced _ _

variable {drawn : Token → Prop} (shown : ∀ token, drawn token → token.kind ≠ .newline → token.Shown)

include shown

/-- A slot is laid out the same way under all settings, and there is a line break behind it if it says
so. -/
theorem movesTo_triviaFrom (how : Instruction) (opening : Opening) (moved : Bool) {slot : Trivia}
    (formed : SlotFormed drawn slot) (tidy : page.Tidy) (begun : page.Begun)
    (broken : moved = true → page.Broken) :
    MovesTo (triviaFrom how opening moved slot) page ∧
      ((triviaFrom how opening moved slot page).1 = true →
        (triviaFrom how opening moved slot page).2.Broken) := by
  induction slot generalizing opening moved page with
  | nil => exact ⟨⟨tidy.kept, fun _ => rfl⟩, broken⟩
  | cons token rest ih =>
    have further : ∀ {change : Page → Page} {later : Opening} {brokenLater : Bool},
        (∀ page, triviaFrom how opening moved (token :: rest) page =
          triviaFrom how later brokenLater rest (change page)) →
        Moves change page → (brokenLater = true → (change page).Broken) →
        MovesTo (triviaFrom how opening moved (token :: rest)) page ∧
          ((triviaFrom how opening moved (token :: rest) page).1 = true →
            (triviaFrom how opening moved (token :: rest) page).2.Broken) := by
      intro change later brokenLater same moves broken
      obtain ⟨movesTo, breaks⟩ :=
        ih later brokenLater formed.tail moves.kept.tidy (moves.kept.begun begun) broken
      rw [funext same]
      exact ⟨moves.then movesTo, breaks⟩
    have line := moves_newline tidy .stay
    have lineBreaks : true = true → (page.newline .stay).Broken := fun _ => broken_newline tidy begun .stay
    have first := moves_firstBreak tidy begun how token.indentHint
    have firstBreaks : true = true → (page.firstBreak how token.indentHint).Broken := fun _ =>
      broken_firstBreak tidy begun how token.indentHint
    by_cases newline : token.isNewline = true
    · cases opening with
      | collapsing => exact further (fun page => by rw [triviaFrom, if_pos newline]) (.refl tidy) broken
      | pending =>
        by_cases drops : how.leading = .none
        · exact further (fun page => by rw [triviaFrom, if_pos newline]; exact if_pos drops) (.refl tidy)
            broken
        · cases moved with
          | true =>
            exact further (fun page => by rw [triviaFrom, if_pos newline]; exact if_neg drops) line
              lineBreaks
          | false =>
            exact further (fun page => by rw [triviaFrom, if_pos newline]; exact if_neg drops) first
              firstBreaks
      | _ =>
        cases moved with
        | true => exact further (fun page => by rw [triviaFrom, if_pos newline]; rfl) line lineBreaks
        | false => exact further (fun page => by rw [triviaFrom, if_pos newline]; rfl) first firstBreaks
    · have noBreak : token.kind ≠ .newline := by simpa [Token.isNewline] using newline
      obtain ⟨given, trivia⟩ := formed token List.mem_cons_self
      have same : ∀ page, triviaFrom how opening moved (token :: rest) page =
          triviaFrom how .over moved rest (page.writeRemark how token) := by
        intro page
        cases opening <;> rw [triviaFrom, if_neg newline, if_pos trivia]
      exact further same
        (moves_writeRemark tidy begun how (shown token given noBreak)) fun isMoved =>
          broken_writeRemark (broken isMoved) how token

theorem movesTo_trivia {slot : Trivia} (formed : SlotFormed drawn slot) (how : Instruction)
    (tidy : page.Tidy) (begun : page.Begun) :
    MovesTo (fun page => page.trivia slot how) page ∧
      ((page.trivia slot how).1 = true → (page.trivia slot how).2.Broken) := by
  unfold trivia
  split
  · exact ⟨⟨tidy.kept, fun _ => rfl⟩, fun moved => (by cases moved)⟩
  · exact movesTo_triviaFrom shown how _ false formed tidy begun fun moved => (by cases moved)

end

section

variable {page : Page} (tidy : page.Tidy)

include tidy

theorem moves_writeSemicolon : Moves writeSemicolon page :=
  (moves_dropSpace tidy).trans (moves_write (moves_dropSpace tidy).kept.tidy rfl true)

omit tidy in
theorem spread_code (page : Page) (settings : Settings) :
    (page.buffer.spread settings.unit).afterCode = Buffer.spread settings.unit page.buffer.afterCode ∧
      (page.buffer.spread settings.unit).code = Buffer.spread settings.unit page.buffer.code := by
  refine Buffer.takeWhile_spread rfl (fun fragment member => ?_) page.buffer
  rw [settings.eq_blank_of_mem_unit fragment member, Buffer.trailsCode, settings.blank_indents.isBlank,
    Bool.true_or]

omit tidy in
theorem code_cases (buffer : Buffer) :
    buffer.code = [] ∨ ∃ content earlier, buffer.code = .text content :: earlier := by
  have stops := List.head?_dropWhile_not Buffer.trailsCode buffer
  unfold Buffer.code
  cases shape : buffer.dropWhile Buffer.trailsCode with
  | nil => exact .inl rfl
  | cons fragment earlier =>
    rw [shape] at stops
    cases fragment with
    | text content => exact .inr ⟨content, earlier, rfl⟩
    | _ => cases stops

theorem moves_placeSemicolon : Moves placeSemicolon page := by
  refine .ite (fun page => page.buffer.afterCode.isEmpty) (fun settings => ?_)
    (fun _ => moves_writeSemicolon tidy) fun behind => ?_
  · exact Buffer.isEmpty_afterCode_spread settings.eq_blank_of_mem_unit settings.blank_indents tidy.neat
  · have whole := page.buffer.afterCode_append_code
    refine .rewrites (fun buffer => buffer.afterCode ++ .text ";" :: buffer.code) tidy ?_ ?_ ?_ ?_
    · exact Neat.insert (code_cases _) (by rw [whole]; exact tidy.neat) ";"
    · simp
    · intro settled
      exact Buffer.Settled.insert (by rw [whole]; exact settled) ";"
    · intro settings
      obtain ⟨after, code⟩ := spread_code page settings
      rw [after, code, Buffer.spread_append]
      rfl

omit tidy in
theorem code_head?_under (page : Page) (settings : Settings) :
    (page.under settings).buffer.code.head? = page.buffer.code.head? := by
  show (page.buffer.spread settings.unit).code.head? = _
  rw [(spread_code page settings).2]
  obtain none | ⟨content, earlier, some⟩ := code_cases page.buffer
  · rw [none]
    rfl
  · rw [some]
    rfl

theorem moves_ensureNewline (ends : page.buffer.breaks = 0) (move : Move) :
    Moves (fun page => page.ensureNewline move) page := by
  have starts : ∀ buffer : Buffer, buffer.breaks = 0 → buffer.head? ≠ some .newline := by
    intro buffer none last
    cases buffer with
    | nil => cases last
    | cons fragment buffer =>
      cases last
      cases none
  have here : page.ensureNewline move = page.newline move := if_neg (starts _ ends)
  have moves := moves_newline tidy move
  refine ⟨by rw [here]; exact moves.kept, fun settings => ?_⟩
  rw [here, ← moves.under]
  refine if_neg (starts _ ?_)
  show Buffer.breaks (page.buffer.spread settings.unit) = 0
  rw [Buffer.breaks_spread settings.eq_blank_of_mem_unit settings.blank_indents, ends]

theorem moves_closeEnumeration :
    Moves (fun page => (page.setIndentation .left).dropLine.write "\x7d") page := by
  have spread := fun settings : Settings =>
    Buffer.dropLine_spread settings.eq_blank_of_mem_unit settings.blank_indents tidy.neat
  have laid : Neat .tab (.text "\x7d" :: Buffer.dropLine page.buffer) := .text _ tidy.neat.dropLine
  refine ⟨⟨⟨tidy.tabs, laid, fun _ => List.cons_ne_nil _ _⟩, fun _ => List.cons_ne_nil _ _, ?_⟩, ?_⟩
  · intro settled
    exact .of_text (Buffer.newline_mem_of_breaks (tidy.neat.breaks_dropLine settled.newline_mem))
  · intro settings
    show ({ (page.under settings).setIndentation .left with
      buffer := .text "\x7d" :: Buffer.dropLine (page.buffer.spread settings.unit) } : Page) = _
    rw [spread settings]
    rfl

end

end Page

end GmlLayout
