import GmlLayout.Proofs.Grammar.LineBreaks
import GmlLayout.Proofs.Layout.Breaks
import GmlLayout.Proofs.Layout.Lines
import GmlLayout.Proofs.Token.Apart

/-!
The end of a page. Blanks are dropped from it fragment by fragment, so the text in front of the final line
breaks ends in a line break only if a token does. Of those that can be written, that is so only for
macros, and for block comments and raw strings that nobody closed.
-/

namespace GmlLayout

open Munch

def overruns : Kind → List Char → Bool
  | .macroLine, _ => true
  | .blockComment, text => !closesComment (text.drop 2)
  | .string, '@' :: quote :: body => !body.contains quote
  | _, _ => false

namespace Munch

theorem newline_notMem {inClass : Char → Bool} {taken : List Char} (outside : inClass '\n' = false)
    (inside : ∀ c ∈ taken, inClass c = true) : '\n' ∉ taken := by
  intro member
  rw [inside _ member] at outside
  cases outside

theorem newline_notMem_line {opening body rest : List Char} (start : '\n' ∉ opening)
    (ends : lineEnd (body ++ rest) = (body, rest)) : '\n' ∉ opening ++ body := by
  have inside : '\n' ∉ body := newline_notMem rfl (run_eq_iff.mp ends).1
  rw [List.mem_append]
  exact not_or.mpr ⟨start, inside⟩

theorem newline_notMem_quotedString (quote : Char) (source : List Char) :
    '\n' ∉ (quotedString quote (escapes quote) source).1 := by
  have escaped : ∀ {c : Char}, escapes quote c = true → c ≠ '\n' := by
    rintro c taken rfl
    unfold escapes at taken
    split at taken <;> cases taken
  fun_induction quotedString quote (escapes quote) source with
  | case1 => exact List.not_mem_nil
  | case2 => exact List.not_mem_nil
  | case3 c visible => simpa using Ne.symm visible
  | case4 => exact List.not_mem_nil
  | case5 d source visible => simpa using Ne.symm visible
  | case6 c d source visible unquoted taken ih => simp [Ne.symm visible, (escaped taken.2).symm, ih]
  | case7 c d source visible unquoted untaken ih => simp [Ne.symm visible, ih]

theorem rawString_last {quote : Char} {source : List Char} (closed : quote ∈ (rawString quote source).1) :
    (rawString quote source).1.getLast? = some quote := by
  induction source with
  | nil => cases closed
  | cons c source ih =>
    unfold rawString at closed ⊢
    split
    · rename_i same
      rw [same]
      rfl
    · rename_i other
      rw [if_neg other] at closed
      have later := ih ((List.mem_cons.mp closed).resolve_left (Ne.symm other))
      rw [List.getLast?_cons, later]
      rfl

theorem blockComment_last {source : List Char} (closed : closesComment (blockComment source).1 = true) :
    (blockComment source).1.getLast? = some '/' := by
  fun_induction blockComment source with
  | case1 => cases closed
  | case2 source => rfl
  | case3 c source other ih =>
    rw [closesComment_cons other] at closed
    rw [List.getLast?_cons, ih closed]
    rfl

end Munch

theorem Cut.overruns {kind : Kind} {text rest : List Char} (cut : Cut kind text rest)
    (visible : kind ≠ .newline) (last : text.getLast? = some '\n') : overruns kind text = true := by
  have member : '\n' ∈ text := List.mem_of_getLast? last
  have digits : ∀ {taken : List Char}, (∀ c ∈ taken, c.isDigit = true) → '\n' ∉ taken :=
    newline_notMem rfl
  have marks : ∀ mark : Symbol, '\n' ∉ mark.text.toList := by
    intro mark
    cases mark <;> decide
  cases cut with
  | newline => exact absurd rfl visible
  | @word first others rest starts inside stops =>
    have word : ∀ c ∈ first :: others, isWordChar c = true :=
      List.forall_mem_cons.mpr ⟨by rw [isWordChar, starts, Bool.true_or], inside⟩
    exact absurd member (newline_notMem (by decide) word)
  | hexadecimal inside stops =>
    have none := newline_notMem (by decide) inside
    grind
  | color inside stops =>
    have none := newline_notMem (by decide) inside
    grind
  | whole starts inside stops plain =>
    exact absurd member (digits (List.forall_mem_cons.mpr ⟨starts, inside⟩))
  | fraction starts inside goesOn within stops =>
    have front := digits (List.forall_mem_cons.mpr ⟨starts, inside⟩)
    have back := digits (List.forall_mem_cons.mpr ⟨goesOn, within⟩)
    grind
  | endDot starts inside stops =>
    have front := digits (List.forall_mem_cons.mpr ⟨starts, inside⟩)
    grind
  | startDot starts inside stops =>
    have back := digits (List.forall_mem_cons.mpr ⟨starts, inside⟩)
    grind
  | macroLine => rfl
  | regionBegin named ends => exact absurd member (newline_notMem_line (by decide) ends)
  | regionEnd named ends => exact absurd member (newline_notMem_line (by decide) ends)
  | define => exact absurd member (by decide)
  | hash => exact absurd member (by decide)
  | @string quote body rest quotes ends =>
    have inline := newline_notMem_quotedString quote (body ++ rest)
    rw [ends] at inline
    obtain rfl | body := List.mem_cons.mp member
    · rcases quotes with quotes | quotes <;> cases quotes
    · exact absurd body inline
  | @rawString quote body rest quotes ends =>
    by_cases closed : quote ∈ body
    · have final := @rawString_last quote (body ++ rest)
      rw [ends] at final
      rw [List.getLast?_cons, List.getLast?_cons, final closed] at last
      rcases quotes with rfl | rfl <;> cases last
    · simpa [GmlLayout.overruns] using closed
  | lineComment ends => exact absurd member (newline_notMem_line (by decide) ends)
  | @blockComment body rest ends =>
    cases closed : closesComment body with
    | false => simpa [GmlLayout.overruns] using closed
    | true =>
      have final := @blockComment_last (body ++ rest)
      rw [ends] at final
      rw [List.getLast?_append, final closed] at last
      cases last
  | pair spelt =>
    rw [← text_of_symbol? spelt] at member
    exact absurd member (marks _)
  | single spelt short stops =>
    rw [← text_of_symbol? spelt] at member
    exact absurd member (marks _)
  | unidentified unknown short visible stops =>
    obtain rfl := List.mem_singleton.mp member
    exact absurd short (by decide)

def endsBroken (text : String) : Bool :=
  text.toList.getLast?.all (· == '\n')

section

variable {source : String} {program : List Stmt} (parsed : parse source = .ok program)

include parsed

theorem exists_overrunning (settings : Settings) {text : String} (inked : text ∈ (layOut settings program).buffer.ink)
    (broken : endsBroken text = true) :
    ∃ token ∈ scan source, token.lexeme = text ∧ overruns token.kind token.lexeme.toList = true ∧
      token.lexeme.toList.getLast? = some '\n' := by
  let found (token : Token) (text : String) : Bool :=
    token.lexeme == text && overruns token.kind token.lexeme.toList
      && token.lexeme.toList.getLast? == some '\n'
  let keep (text : String) : Bool := endsBroken text && !(scan source).any (found · text)
  have tokens : ∀ token ∈ scan source, (textInk token.lexeme).filter keep = [] := by
    intro token member
    by_cases lineBreak : token.kind = .newline
    · rw [lexeme_eq_fixedText member (by rw [lineBreak]; rfl), lineBreak]
      rfl
    · refine filter_textInk (Bool.and_eq_false_imp.mpr fun ends => ?_)
      obtain ⟨rest, cut⟩ := exists_cut_of_mem_scan member lineBreak
      have last : token.lexeme.toList.getLast? = some '\n' := by
        have shape := List.getLast?_eq_some_getLast (spells_of_mem_scan member lineBreak).ne_nil
        rw [endsBroken, shape, Option.all_some, beq_iff_eq] at ends
        rw [shape, ends]
      rw [Bool.not_eq_false', List.any_eq_true]
      refine ⟨token, member, ?_⟩
      simp only [found, cut.overruns lineBreak last, last, BEq.rfl, Bool.and_self]
  have unkept : (layOut settings program).kept keep = [] := by
    refine layOut_unkept parsed tokens rfl (fun word => ?_) (fun mark => ?_) rfl settings
    · cases word <;> rfl
    · cases mark <;> rfl
  have missing : keep text = false := by
    by_contra kept
    have member : text ∈ (layOut settings program).kept keep :=
      List.mem_filter.mpr ⟨inked, eq_true_of_ne_false kept⟩
    rw [unkept] at member
    cases member
  rw [Bool.and_eq_false_imp, Bool.not_eq_false', List.any_eq_true] at missing
  obtain ⟨token, member, shape⟩ := missing broken
  simp only [found, Bool.and_eq_true, beq_iff_eq] at shape
  exact ⟨token, member, shape.1.1, shape.1.2, shape.2⟩

end

/-- Without the blanks at its end, a buffer in normal form ends in a text or was empty. -/
theorem Buffer.Neat.trimmed {blank : Fragment} {buffer : Buffer} (neat : Buffer.Neat blank buffer) :
    buffer = [] ∨ ∃ content earlier, buffer.dropWhile Fragment.isBlank = .text content :: earlier := by
  induction neat with
  | nil => exact .inl rfl
  | @text buffer content neat ih => exact .inr ⟨content, buffer, rfl⟩
  | @space content buffer neat ih => exact .inr ⟨content, buffer, rfl⟩
  | newline neat breakable few ih => exact .inr (ih.resolve_left breakable.ne_nil)
  | margin same indents neat below ih =>
    rw [List.dropWhile_cons_of_pos indents.isBlank]
    exact .inr (ih.resolve_left (Buffer.ne_nil_of_breaks below))

namespace Print

open Page

variable {drawn : Token → Prop}

theorem begun_stmts (shown : ∀ token, drawn token → token.kind ≠ .newline → token.Shown)
    {statements : List Stmt} (formed : Stmt.ListFormed drawn statements) {page : Page} (tidy : page.Tidy)
    {statement : Stmt} (member : statement ∈ statements) (other : statement ≠ .lineBreak) :
    (after (stmts statements) page).Begun := by
  induction statements generalizing page with
  | nil => cases member
  | cons first others ih =>
    obtain ⟨moves, begun⟩ := steady_stmt shown formed.1 page tidy trivial
    obtain rfl | later := List.mem_cons.mp member
    · obtain ⟨further, _⟩ := quiet_stmts shown formed.2 _ moves.kept.tidy trivial
      exact further.kept.begun (begun other)
    · exact ih formed.2 moves.kept.tidy later

theorem buffer_lineBreak {page : Page} (empty : page.buffer = []) : (after (stmt .lineBreak) page).buffer = [] := by
  obtain ⟨settings, buffer, indentation, lineEnded, _, _, _, _, _, exemptions, _⟩ := page
  cases empty
  cases lineEnded <;> rfl

theorem buffer_lineBreaks {statements : List Stmt} (breaks : ∀ statement ∈ statements, statement = .lineBreak)
    {page : Page} (empty : page.buffer = []) : (after (stmts statements) page).buffer = [] := by
  induction statements generalizing page with
  | nil => exact empty
  | cons first others ih =>
    obtain ⟨rfl, later⟩ := List.forall_mem_cons.mp breaks
    exact ih later (buffer_lineBreak empty)

end Print

theorem filled_empty_iff {source : String} {program : List Stmt} (parsed : parse source = .ok program) :
    (Page.filled program).buffer = [] ↔ ∀ token ∈ scan source, token.kind = .newline := by
  rw [← lineBreaks_iff parsed]
  constructor
  · intro empty statement member
    by_contra other
    exact Print.begun_stmts shown_of_mem_scan (parse_formed parsed) tidy_blank member other empty
  · exact fun breaks => Print.buffer_lineBreaks breaks rfl

/-- A formatted text is a body, which does not depend on how many line breaks are to follow it, and those
line breaks. The body ends in a line break only where its last fragment is a token that may do so, and it
is empty exactly if the source holds nothing but line breaks. -/
theorem format_ending {source : String} {program : List Stmt} (parsed : parse source = .ok program)
    (settings : Settings) :
    ∃ body : Buffer,
      (∀ count, (layOut { settings with newlinesAtEnd := count } program).buffer =
          List.replicate count .newline ++ body ∧
        format { settings with newlinesAtEnd := count } source =
          .ok (body.toText ++ String.join (List.replicate count "\n"))) ∧
      (body.toText.toList.getLast? = some '\n' → ∃ token ∈ scan source,
        body.head? = some (.text token.lexeme) ∧ overruns token.kind token.lexeme.toList = true ∧
          token.lexeme.toList.getLast? = some '\n') ∧
      (body.toText = "" ↔ ∀ token ∈ scan source, token.kind = .newline) := by
  let body := Buffer.spread settings.unit ((Page.filled program).buffer.dropWhile Fragment.isBlank)
  have laid : ∀ count, (layOut { settings with newlinesAtEnd := count } program).buffer =
      List.replicate count .newline ++ body :=
    fun count => buffer_layOut parsed { settings with newlinesAtEnd := count }
  refine ⟨body, fun count => ⟨laid count, ?_⟩, ?_⟩
  · rw [format, parsed]
    show Except.ok (layOut _ program).buffer.toText = _
    rw [laid, Buffer.toText_append, List.reverse_replicate, spell, List.map_replicate]
    rfl
  · obtain empty | ⟨content, earlier, shape⟩ := (tidy_filled parsed).neat.trimmed
    · have none : body = [] := by
        simp only [body, empty, List.dropWhile_nil, Buffer.spread_nil]
      rw [none]
      refine ⟨fun last => ?_, fun _ => (filled_empty_iff parsed).mp empty, fun _ => rfl⟩
      cases last
    · have ends : body = .text content :: Buffer.spread settings.unit earlier := by
        simp only [body, shape, Buffer.spread_text]
      have inked : content ∈ (layOut settings program).buffer.ink := by
        rw [buffer_layOut parsed settings, Buffer.ink_append, shape, Buffer.spread_text, Buffer.ink]
        exact List.mem_append_left _ (List.mem_append_right _ (List.mem_singleton_self content))
      have found := exists_overrunning parsed settings inked
      have text : body.toText.toList =
          (Buffer.spread settings.unit earlier).toText.toList ++ content.toList := by
        rw [ends, ← List.singleton_append, Buffer.toText_append, String.toList_append]
        simp [spell, Fragment.toText]
      have begun : (Page.filled program).buffer ≠ [] := by
        intro empty
        rw [empty] at shape
        cases shape
      constructor
      · intro last
        rw [text, List.getLast?_append] at last
        have broken : endsBroken content = true := by
          unfold endsBroken
          cases final : content.toList.getLast? with
          | none => rfl
          | some c =>
            rw [final] at last
            cases last
            rfl
        obtain ⟨token, member, same, overrun, last⟩ := found broken
        exact ⟨token, member, by rw [ends, same]; rfl, overrun, last⟩
      · refine iff_of_false (fun none => ?_) (mt (filled_empty_iff parsed).mpr begun)
        have nothing : content.toList = [] := by
          rw [none] at text
          exact (List.append_eq_nil_iff.mp text.symm).2
        obtain ⟨token, _, same, _, last⟩ := found (by rw [endsBroken, nothing]; rfl)
        rw [same, nothing] at last
        cases last

/-- A macro that goes on behind its last line keeps the line break there. -/
theorem format_ending_macro : ∃ program, parse "#macro A 1\\\n" = .ok program ∧
    (layOut {} program).output = "#macro A 1\\\n\n" ∧ ∃ body : Buffer,
    (∀ count, (layOut { newlinesAtEnd := count } program).buffer = List.replicate count .newline ++ body ∧
      format { newlinesAtEnd := count } "#macro A 1\\\n" =
        .ok (body.toText ++ String.join (List.replicate count "\n"))) ∧
    (body.toText.toList.getLast? = some '\n' → ∃ token ∈ scan "#macro A 1\\\n",
      body.head? = some (.text token.lexeme) ∧ overruns token.kind token.lexeme.toList = true ∧
        token.lexeme.toList.getLast? = some '\n') ∧
    (body.toText = "" ↔ ∀ token ∈ scan "#macro A 1\\\n", token.kind = .newline) := by
  have parses : ∃ program, parse "#macro A 1\\\n" = .ok program ∧
      (layOut {} program).output = "#macro A 1\\\n\n" := exists_ok (by decide +kernel)
  obtain ⟨program, parsed, output⟩ := parses
  exact ⟨program, parsed, output, format_ending parsed {}⟩

end GmlLayout
