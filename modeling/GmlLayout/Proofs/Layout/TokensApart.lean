import GmlLayout.Proofs.Layout.Joined
import GmlLayout.Proofs.Layout.NormalForm
import GmlLayout.Proofs.Layout.PartedStatements

/-!
Tokens of a formatted text stay apart. Texts that are written side by side, without a blank between them, have
together the tokens that each of them has alone, if the tree asks for no pair of tokens that would be read as
another and every string of the source is closed.
-/

namespace GmlLayout

open Munch Print

theorem Cut.completes_startDot {kind : Kind} {text rest : List Char} (cut : Cut kind text rest)
    (isNumber : kind = .numberStartDot) : completes "0" (String.ofList text) = true := by
  cases cut with
  | startDot starts inside stops =>
    rw [completes, String.toList_ofList]
    simpa using starts
  | word => exact absurd isNumber.symm (wordKind_ne _ (by simp) (by simp))
  | _ => cases isNumber

theorem Cut.completes_endDot {kind : Kind} {text rest : List Char} (cut : Cut kind text rest)
    (isNumber : kind = .numberEndDot) : completes (String.ofList text) "0" = true := by
  cases cut with
  | endDot starts inside stops =>
    rw [completes, String.toList_ofList]
    simp [starts]
  | word => exact absurd isNumber.symm (wordKind_ne _ (by simp) (by simp))
  | _ => cases isNumber

theorem proper_of_mem_scan {source : String} (closed : ∀ token ∈ scan source, token.isClosed = true)
    (token : Token) (member : token ∈ scan source) (visible : token.kind ≠ .newline) : token.Proper := by
  obtain ⟨rest, cut⟩ := exists_cut_of_mem_scan member visible
  have same : String.ofList token.lexeme.toList = token.lexeme := String.ofList_toList
  refine ⟨shown_of_mem_scan token member visible, sound_of_mem_scan member visible (closed token member),
    lexeme_eq_fixedText member, (classified_of_mem_scan member visible).1, fun isNumber => ?_, fun isNumber => ?_⟩
  · exact same ▸ cut.completes_startDot isNumber
  · exact same ▸ cut.completes_endDot isNumber

namespace Buffer

theorem Parted.spread [Account] {unit : List Fragment} {blank : Fragment}
    (same : ∀ fragment ∈ unit, fragment = blank) (indents : blank.Indents) {buffer : Buffer}
    (neat : Neat .tab buffer) (parted : Parted buffer) : Parted (Buffer.spread unit buffer) := by
  have room : ∀ {buffer : Buffer} {content : String}, Neat .tab buffer → Takes buffer content →
      Takes (Buffer.spread unit buffer) content :=
    fun neat takes last isLast => takes last ((head?_eq_text_spread same indents neat last).mp isLast)
  induction neat with
  | nil => exact .nil
  | @text buffer content neat ih =>
    cases parted with
    | blank isBlank => cases isBlank
    | text firm takes parted => exact .text firm (room neat takes) (ih parted)
    | number isNumber firm takes parted =>
      have earlier : Neat .tab _ := neat.tail
      exact .number isNumber firm (room earlier takes) (ih parted)
  | space neat ih => exact .blank rfl (ih parted.tail)
  | newline neat breakable few ih => exact .blank rfl (ih parted.tail)
  | margin isTab _ neat below ih =>
    subst isTab
    have blanks : ∀ fragment ∈ unit, fragment.isBlank = true := fun fragment member =>
      same fragment member ▸ indents.isBlank
    exact (ih parted.tail).blanks blanks

theorem Parted.beside [Account] {buffer : Buffer} (parted : Parted buffer) {first second : String}
    (adjacent : Adjacent buffer first second) (twoTokens : completes first second = false) :
    Beside first second := by
  obtain ⟨earlier, isSuffix⟩ := adjacent.exists_suffix
  cases parted.of_suffix isSuffix with
  | blank isBlank => cases isBlank
  | text firm takes => exact takes first rfl
  | number isNumber =>
    rw [twoTokens] at isNumber
    cases isNumber

end Buffer

theorem layOut_parted [Account] (settings : Settings) {source : String} {program : List Stmt}
    (parsed : parse source = .ok program) (closed : ∀ token ∈ scan source, token.isClosed = true)
    (separate : Stmt.listSeparate false program = true) : (layOut settings program).buffer.Parted := by
  let laid := after (stmts program) (Page.blank { useSpaces := false })
  have formed := parse_formed parsed
  have parted : laid.buffer.Parted := by
    have lays := laidOutAll (proper_of_mem_scan closed) program formed separate
    exact (lays _ ⟨tidy_blank, awaitsFirst_of_clear program (Page.clear_of_empty rfl)⟩).stands.parted
  obtain ⟨tidy, _, _, under⟩ := (quiet_stmts shown_of_mem_scan formed).loose.passes tidy_blank trivial settings
  have spread : (laid.under settings).buffer.Parted :=
    parted.spread settings.eq_blank_of_mem_unit settings.blank_indents tidy.neat
  have whole : (after (stmts program) (Page.blank settings)).buffer.Parted := by
    rw [show after (stmts program) (Page.blank settings) = laid.under settings from under]
    exact spread
  refine (whole.of_suffix (List.dropWhile_suffix Fragment.isBlank)).blanks fun fragment member => ?_
  rw [List.eq_of_mem_replicate member]
  rfl

/-- Texts of a formatted source that stand side by side have together the tokens that each has alone. Remarks
are left out. A number that is completed by a zero is one text, and each of its parts stays apart from the
texts on its other side. -/
theorem layOut_apart (settings : Settings) {source : String} {program : List Stmt}
    (parsed : parse source = .ok program) (closed : ∀ token ∈ scan source, token.isClosed = true)
    (separate : separatesTokens program = true) {first second : String}
    (adjacent : (layOut settings program).buffer.joined.Adjacent first second ∨
      (layOut settings program).buffer.Adjacent first second ∧ completes first second = false)
    (code : isRemarkText first = false ∧ isRemarkText second = false) :
    (scan (first ++ second)).map Token.unplaced = (scan first ++ scan second).map Token.unplaced := by
  let : Account := ⟨false⟩
  have parted := layOut_parted settings parsed closed separate
  obtain adjacent | ⟨adjacent, twoTokens⟩ := adjacent
  · exact ((parted.joined.beside adjacent).apart code).scan_append
  · exact ((parted.beside adjacent twoTokens).apart code).scan_append

/-- A sign in front of a name, a step operator behind a member, and a sign in front of a completed number. -/
theorem layOut_apart_signs : ∃ program, parse "a = -b.c++ - -.5;" = .ok program ∧
    (layOut {} program).buffer.reverse = [.text "a", .space, .text "=", .space, .text "-", .text "b", .text ".",
      .text "c", .text "++", .space, .text "-", .space, .text "-", .text "0", .text ".5", .text ";", .newline] ∧
    (scan ("-" ++ "b")).map Token.unplaced = (scan "-" ++ scan "b").map Token.unplaced ∧
    (scan ("c" ++ "++")).map Token.unplaced = (scan "c" ++ scan "++").map Token.unplaced ∧
    (scan ("-" ++ "0.5")).map Token.unplaced = (scan "-" ++ scan "0.5").map Token.unplaced := by
  have checked : ∃ program, parse "a = -b.c++ - -.5;" = .ok program ∧ separatesTokens program = true ∧
      (layOut {} program).buffer.reverse = [.text "a", .space, .text "=", .space, .text "-", .text "b", .text ".",
        .text "c", .text "++", .space, .text "-", .space, .text "-", .text "0", .text ".5", .text ";",
        .newline] ∧
      (layOut {} program).buffer.joined.reverse = [.text "a", .space, .text "=", .space, .text "-", .text "b",
        .text ".", .text "c", .text "++", .space, .text "-", .space] ++ .text "-" :: .text "0.5" :: [.text ";",
        .newline] :=
    exists_ok (by decide +kernel)
  obtain ⟨program, parsed, separate, laid, whole⟩ := checked
  have closed : ∀ token ∈ scan "a = -b.c++ - -.5;", token.isClosed = true := by decide +kernel
  refine ⟨program, parsed, laid, ?_, ?_, ?_⟩
  · refine layOut_apart {} parsed closed separate (.inr ⟨⟨[.text "a", .space, .text "=", .space], _, laid⟩, ?_⟩)
      (by decide)
    decide
  · refine layOut_apart {} parsed closed separate (.inr ⟨⟨[.text "a", .space, .text "=", .space, .text "-",
      .text "b", .text "."], _, laid⟩, ?_⟩) (by decide)
    decide
  · exact layOut_apart {} parsed closed separate (.inl ⟨_, _, whole⟩) (by decide)

/-- Two signs in a row are put side by side, and read as one step operator. -/
theorem signs_not_apart : ∃ program, parse "a = - -b;" = .ok program ∧
    (layOut {} program).buffer.reverse = [.text "a", .space, .text "=", .space, .text "-", .text "-", .text "b",
      .text ";", .newline] ∧
    isRemarkText "-" = false ∧ completes "-" "-" = false ∧
    (scan ("-" ++ "-")).map Token.unplaced ≠ (scan "-" ++ scan "-").map Token.unplaced :=
  exists_ok (by decide +kernel)

end GmlLayout
