import GmlLayout.Proofs.Token.Weave

/-!
Scanning loses nothing. A source is what its tokens are written as, with gaps before, between and behind
them; and each token, line breaks apart, is read back from what it is written as, with nothing before or
behind it.
-/

namespace GmlLayout

open Munch

namespace Munch

/-! What a reader has split off a text, it splits off again when nothing follows. -/

theorem lineEnd_alone {body rest : List Char} (ends : lineEnd (body ++ rest) = (body, rest)) :
    lineEnd body = (body, []) := by
  have alone : lineEnd (body ++ []) = (body, []) := run_eq (run_eq_iff.mp ends).1 .nil
  rwa [List.append_nil] at alone

theorem continuedLine_alone (source : List Char) :
    continuedLine (continuedLine source).1 = ((continuedLine source).1, []) := by
  fun_induction continuedLine source with
  | case1 => rfl
  | case2 source ih => simp [continuedLine, ih]
  | case3 source other => rfl
  | case4 c source other noBreak ih =>
    have whole := continuedLine_append source
    have unescaped : ∀ later, c = '\\' → (continuedLine source).1 = '\n' :: later → False := by
      intro later backslash broken
      rw [broken] at whole
      exact other _ backslash whole.symm
    rw [continuedLine.eq_3 _ _ unescaped, if_neg noBreak, ih]

theorem quotedString_alone {quote : Char} (escapable : Char → Bool) (source : List Char) :
    quotedString quote escapable (quotedString quote escapable source).1 =
      ((quotedString quote escapable source).1, []) := by
  fun_induction quotedString quote escapable source with
  | case1 => rfl
  | case2 => rfl
  | case3 c noBreak => simp [quotedString, noBreak]
  | case4 d source => rfl
  | case5 d source noBreak => simp [quotedString, noBreak]
  | case6 c d source noBreak noQuote escaped ih =>
    rw [quotedString, if_neg noBreak, if_neg noQuote, if_pos escaped, ih]
  | case7 c d source noBreak noQuote unescaped ih =>
    have whole := quotedString_append quote escapable (d :: source)
    revert ih whole
    cases (quotedString quote escapable (d :: source)).1 with
    | nil => intro _ _; simp [quotedString, noBreak]
    | cons e taken =>
      intro ih whole
      have first : e = d := (List.cons.inj whole).1
      subst first
      rw [quotedString, if_neg noBreak, if_neg noQuote, if_neg unescaped, ih]

theorem rawString_alone (quote : Char) (source : List Char) :
    rawString quote (rawString quote source).1 = ((rawString quote source).1, []) := by
  induction source with
  | nil => rfl
  | cons c source ih =>
    by_cases last : c = quote
    · simp [rawString, last]
    · simp [rawString, last, ih]

theorem blockComment_alone (source : List Char) :
    blockComment (blockComment source).1 = ((blockComment source).1, []) := by
  fun_induction blockComment source with
  | case1 => rfl
  | case2 source => rfl
  | case3 c source other ih =>
    have whole := blockComment_append source
    rw [blockComment.eq_3, ih]
    intro later star slash
    rw [slash] at whole
    exact other _ star whole.symm

end Munch

theorem Cut.alone {kind : Kind} {text rest : List Char} (cut : Cut kind text rest) : Cut kind text [] := by
  have named : ∀ {body : List Char}, Stops isWordChar (body ++ rest) → Stops isWordChar (body ++ []) := by
    intro body stops
    cases body with
    | nil => exact .nil
    | cons c body => exact .cons stops.head
  cases cut with
  | newline inside stops => exact .newline inside .nil
  | word starts inside stops => exact .word starts inside .nil
  | hexadecimal inside stops => exact .hexadecimal inside .nil
  | color inside stops => exact .color inside .nil
  | whole starts inside stops plain => exact .whole starts inside .nil fun _ _ => .nil
  | fraction starts inside goesOn within stops => exact .fraction starts inside goesOn within .nil
  | endDot starts inside stops => exact .endDot starts inside .nil
  | startDot starts inside stops => exact .startDot starts inside .nil
  | @macroLine body rest stops ends =>
    have again := continuedLine_alone (body ++ rest)
    rw [ends] at again
    exact .macroLine (named stops) (by rw [List.append_nil]; exact again)
  | regionBegin stops ends =>
    exact .regionBegin (named stops) (by rw [List.append_nil]; exact lineEnd_alone ends)
  | regionEnd stops ends =>
    exact .regionEnd (named stops) (by rw [List.append_nil]; exact lineEnd_alone ends)
  | define stops => exact .define .nil
  | hash unknown => exact .hash rfl
  | @string quote body rest quotes ends =>
    have again := @quotedString_alone quote (escapes quote) (body ++ rest)
    rw [ends] at again
    exact .string quotes (by rw [List.append_nil]; exact again)
  | @rawString quote body rest quotes ends =>
    have again := rawString_alone quote (body ++ rest)
    rw [ends] at again
    exact .rawString quotes (by rw [List.append_nil]; exact again)
  | lineComment ends => exact .lineComment (by rw [List.append_nil]; exact lineEnd_alone ends)
  | @blockComment body rest ends =>
    have again := blockComment_alone (body ++ rest)
    rw [ends] at again
    exact .blockComment (by rw [List.append_nil]; exact again)
  | pair spelt => exact .pair spelt
  | single spelt short stops => exact .single spelt short .nil
  | unidentified unknown short visible stops => exact .unidentified unknown short visible .nil

theorem Spells.text_eq {kind : Kind} {text : List Char} (spells : Spells kind text)
    (textless : kind.carriesText = false) (noBreak : kind ≠ .newline) : text = kind.fixedText.toList := by
  cases spells with
  | symbol mark => rfl
  | keyword word => rfl
  | define => rfl
  | newline => exact absurd rfl noBreak
  | _ => cases textless

namespace Munch

def tokenAt (munch : Munch) (line column : Nat) : Token :=
  ⟨munch.kind, munch.payload, line, column⟩

theorem lexeme_tokenAt {first : Char} (source : List Char) (noGap : isGap first = false)
    (line column : Nat) :
    ∃ margin, (read first source).text =
        ((read first source).tokenAt line column).lexeme.toList ++ margin ∧
      (∀ c ∈ margin, isGap c = true) ∧ ((read first source).kind ≠ .newline → margin = []) := by
  have cut : (read first source).IsCut := read_cut source noGap
  have spells := read_spells source noGap
  generalize read first source = munch at cut spells
  obtain ⟨kind, text, rest⟩ := munch
  by_cases broken : kind = .newline
  · subst broken
    cases spells with
    | newline blanks =>
      generalize kindEq : Kind.newline = kind at cut
      cases cut with
      | newline inside stops =>
        refine ⟨blanks, ?_, fun c member => ?_, fun other => absurd rfl other⟩
        · simp [Token.lexeme, tokenAt, payload, Kind.carriesText, Kind.fixedText]
        · rw [isGap, inside c member, Bool.true_or]
      | word starts inside stops => exact absurd kindEq (Cut.wordKind_ne _ (by simp) (by simp))
      | _ => cases kindEq
  · refine ⟨[], ?_, by simp, fun _ => rfl⟩
    rw [List.append_nil]
    cases carries : kind.carriesText with
    | true => simp [Token.lexeme, tokenAt, payload, carries]
    | false =>
      rw [spells.text_eq carries broken]
      simp [Token.lexeme, tokenAt, payload, carries, broken]

end Munch

namespace Cursor

/-- The tokens of what is left to read, with the gap in front of them and the gap behind each. -/
theorem tokens_lossless {cursor : Cursor} {bound : Nat} (enough : cursor.rest.length ≤ bound) :
    ∃ lead gaps, (∀ gap ∈ lead :: gaps, ∀ c ∈ gap, isGap c = true) ∧
      gaps.length = (cursor.tokens bound).length ∧
      cursor.rest = lead ++ (List.zipWith (fun token gap => token.lexeme.toList ++ gap)
        (cursor.tokens bound) gaps).flatten := by
  induction bound generalizing cursor with
  | zero =>
    have none : cursor.rest = [] := List.length_eq_zero_iff.mp (Nat.le_zero.mp enough)
    exact ⟨[], [], by simp, rfl, none⟩
  | succ bound ih =>
    have blank : ∀ c ∈ cursor.rest.takeWhile isGap, isGap c = true :=
      List.all_eq_true.mp List.all_takeWhile
    have whole : cursor.rest.takeWhile isGap ++ cursor.rest.dropWhile isGap = cursor.rest :=
      List.takeWhile_append_dropWhile
    cases rest : cursor.rest.dropWhile isGap with
    | nil =>
      rw [rest, List.append_nil] at whole
      rw [tokens_of_gap (by rw [← whole]; exact blank)]
      exact ⟨cursor.rest, [], by rw [← whole]; simpa using blank, rfl, by simp⟩
    | cons first source =>
      have visible : isGap first = false := by
        have stops := List.head?_dropWhile_not isGap cursor.rest
        rwa [rest] at stops
      rw [rest] at whole
      have step : cursor.tokens (bound + 1) =
          (read first source).tokenAt cursor.skipGap.line cursor.skipGap.column ::
            (cursor.skipGap.advance (read first source)).tokens bound := by
        have skipped : cursor.skipGap.rest = first :: source := rest
        rw [tokens, next]
        simp only [skipped]
        rfl
      have cutOff : (read first source).text ++ (read first source).rest = first :: source :=
        read_append first source
      have shorter : (cursor.skipGap.advance (read first source)).rest.length ≤ bound := by
        have longer := congrArg List.length cutOff
        have all := congrArg List.length whole
        have some := List.length_pos_iff.mpr (read_spells source visible).ne_nil
        simp only [List.length_append, List.length_cons] at longer all
        show (read first source).rest.length ≤ bound
        omega
      obtain ⟨lead, gaps, blanks, counted, later⟩ := ih shorter
      obtain ⟨margin, text, marginBlank, _⟩ :=
        lexeme_tokenAt source visible cursor.skipGap.line cursor.skipGap.column
      obtain ⟨leadBlank, gapsBlank⟩ := List.forall_mem_cons.mp blanks
      refine ⟨cursor.rest.takeWhile isGap, (margin ++ lead) :: gaps, ?_, ?_, ?_⟩
      · refine List.forall_mem_cons.mpr ⟨blank, List.forall_mem_cons.mpr ⟨fun c member => ?_, gapsBlank⟩⟩
        obtain member | member := List.mem_append.mp member
        · exact marginBlank c member
        · exact leadBlank c member
      · rw [step, List.length_cons, List.length_cons, counted]
      · have remains : (read first source).rest =
            lead ++ (List.zipWith (fun token gap => token.lexeme.toList ++ gap)
              ((cursor.skipGap.advance (read first source)).tokens bound) gaps).flatten := later
        rw [step, List.zipWith_cons_cons, List.flatten_cons]
        calc cursor.rest = cursor.rest.takeWhile isGap ++ first :: source := whole.symm
          _ = _ := by rw [← cutOff, text, remains]; simp only [List.append_assoc]

end Cursor

theorem scan_of_cut {kind : Kind} {text : List Char} (cut : Cut kind text []) :
    ∃ token, scan (String.ofList text) = [token] ∧ token.kind = kind ∧
      token.payload = (⟨kind, text, []⟩ : Munch).payload := by
  have visible := cut.visible
  obtain ⟨first, others, shape, reread⟩ := cut.read
  rw [shape] at visible
  rw [List.append_nil] at reread
  have split : (Cursor.start text).rest = [] ++ first :: others := shape
  obtain ⟨token, next, placed⟩ := Cursor.next_eq split noGap visible
  rw [reread] at next placed
  have after : ((Cursor.start text).skipGap.advance ⟨kind, text, []⟩).tokens others.length = [] :=
    Cursor.tokens_of_gap (by intro c member; cases member) _
  refine ⟨token, ?_, congrArg Token.kind placed, congrArg Token.payload placed⟩
  rw [scan, String.toList_ofList]
  have length : text.length = others.length + 1 := by rw [shape, List.length_cons]
  rw [length, Cursor.tokens, next]
  simp only [after]

/-- The tokens of a source, as they are written, with the gap in front of them and the gap behind each,
are the source. No token is empty, and each but a line break is what its own text alone is read as. -/
theorem scan_lossless (source : String) :
    (∃ lead gaps, (∀ gap ∈ lead :: gaps, ∀ c ∈ gap, c = ' ' ∨ c = '\t' ∨ c = '\r') ∧
      gaps.length = (scan source).length ∧
      source.toList = lead ++ (List.zipWith (fun token gap => token.lexeme.toList ++ gap)
        (scan source) gaps).flatten) ∧
    ∀ token ∈ scan source, token.lexeme ≠ "" ∧
      (token.kind = .newline → token.lexeme = "\n") ∧
      (token.kind ≠ .newline → ∃ alone, scan token.lexeme = [alone] ∧ alone.kind = token.kind ∧
        alone.payload = token.payload) := by
  constructor
  · obtain ⟨lead, gaps, blanks, counted, whole⟩ :=
      @Cursor.tokens_lossless (.start source.toList) source.toList.length (Nat.le_refl _)
    refine ⟨lead, gaps, fun gap member c inGap => ?_, counted, whole⟩
    simpa [isGap, isIndent, or_assoc] using blanks gap member c inGap
  · intro token member
    by_cases broken : token.kind = .newline
    · have written : token.lexeme = "\n" := by
        rw [lexeme_eq_fixedText member (by rw [broken]; rfl), broken]
        rfl
      exact ⟨by rw [written]; decide, fun _ => written, fun other => absurd broken other⟩
    · obtain ⟨first, rest, visible, kind, payload⟩ := exists_read_of_mem_tokens member
      obtain ⟨margin, text, _, none⟩ := lexeme_tokenAt rest visible token.line token.column
      have same : (read first rest).tokenAt token.line token.column = token := by
        rw [tokenAt, ← kind, ← payload]
      rw [same, none (kind ▸ broken), List.append_nil] at text
      have cut : Cut (read first rest).kind (read first rest).text [] := (read_cut rest visible).alone
      obtain ⟨alone, scanned, aloneKind, alonePayload⟩ := scan_of_cut cut
      have nonempty : token.lexeme ≠ "" := by
        intro empty
        rw [empty] at text
        exact (read_spells rest visible).ne_nil text
      rw [text, String.ofList_toList] at scanned
      refine ⟨nonempty, fun same => absurd same broken, fun _ => ⟨alone, scanned, ?_, ?_⟩⟩
      · rw [aloneKind, kind]
      · rw [alonePayload, payload]
        rfl

end GmlLayout
