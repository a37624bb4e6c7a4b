import GmlLayout.Proofs.Token.Cut
import GmlLayout.Proofs.Token.Position
import GmlLayout.Proofs.Tree.MapTokens

/-!
Changing the gaps of a source. A gap may be widened, narrowed or filled with other blanks, and between
two tokens of one line it may be put in anew; only behind a line break, where it is an indentation, and
behind a token that would swallow it, it stays as it is. Then the tokens remain the same, but for where
they stand.
-/

namespace GmlLayout

open Munch

/-- Whether a string, whose opening quote is left off, ends in a quote that no backslash has taken. -/
def closesQuote (quote : Char) (escapable : Char → Bool) : List Char → Bool
  | [] => false
  | [c] => c == quote
  | c :: d :: body =>
    if c = '\\' ∧ escapable d then closesQuote quote escapable body
    else closesQuote quote escapable (d :: body)

def closesComment : List Char → Bool
  | [] => false
  | '*' :: '/' :: _ => true
  | _ :: body => closesComment body

/-- Tokens that go on to the end of their line or of the text: comments to the end of the line, region
marks, macros, and strings and block comments that nobody closed. -/
def runsOn : Kind → List Char → Bool
  | .lineComment, _ | .regionBegin, _ | .regionEnd, _ | .macroLine, _ => true
  | .string, '@' :: quote :: body => !body.contains quote
  | .string, quote :: body => !closesQuote quote (escapes quote) body
  | .blockComment, text => !closesComment (text.drop 2)
  | _, _ => false

/-- A gap may become another one. At the top of the text every change is allowed, behind a line break
none is, between two tokens of a line a gap stays or is put in, and at the end of a line or of the text
it comes and goes, unless the token in front of it runs on. -/
def GapChange (before next : Option Munch) (gap changed : List Char) : Prop :=
  (∀ c ∈ changed, isGap c = true) ∧
    (changed = gap ∨
      match before with
      | none => True
      | some token =>
        token.kind ≠ .newline ∧
          if next.all (·.kind = .newline) then runsOn token.kind token.text = false
          else changed ≠ [])

/-- The second text arises from the first, which the given token is in front of, by changes of gaps. -/
inductive Respaced : Option Munch → List Char → List Char → Prop where
  | finish {before : Option Munch} {gap changed : List Char} (blank : ∀ c ∈ gap, isGap c = true)
      (change : GapChange before none gap changed) : Respaced before gap changed
  | token {before : Option Munch} {gap changed source others : List Char} {first : Char}
      (blank : ∀ c ∈ gap, isGap c = true) (visible : isGap first = false)
      (change : GapChange before (some (read first source)) gap changed)
      (later : Respaced (some (read first source)) (read first source).rest others) :
      Respaced before (gap ++ first :: source) (changed ++ (read first source).text ++ others)

namespace Munch

/-- A text whose beginning was split off starts alike before any rest that starts like the old one. -/
theorem head?_append_of_split {source taken left rest : List Char} (whole : taken ++ left = source)
    (same : rest.head? = left.head?) : (taken ++ rest).head? = source.head? := by
  rw [← whole, List.head?_append, List.head?_append, same]

theorem continuedLine_again (source : List Char) {rest : List Char}
    (same : rest.head? = (continuedLine source).2.head?) :
    continuedLine ((continuedLine source).1 ++ rest) = ((continuedLine source).1, rest) := by
  fun_induction continuedLine source with
  | case1 =>
    have none : rest = [] := by simpa using same
    rw [none]
    rfl
  | case2 source ih => simp [continuedLine, ih same]
  | case3 source other =>
    cases rest with
    | nil => cases same
    | cons d rest =>
      cases same
      rfl
  | case4 c source other noBreak ih =>
    have starts := head?_append_of_split (continuedLine_append source) same
    have unescaped : ∀ later, c = '\\' → (continuedLine source).1 ++ rest = '\n' :: later → False := by
      intro later backslash broken
      rw [broken] at starts
      cases source with
      | nil => cases starts
      | cons d source =>
        cases starts
        exact other source backslash rfl
    rw [List.cons_append, continuedLine.eq_3 _ _ unescaped, if_neg noBreak, ih same]

section

variable {quote : Char} (escapable : Char → Bool)

theorem quotedString_newline (rest : List Char) :
    quotedString quote escapable ('\n' :: rest) = ([], '\n' :: rest) := by
  cases rest <;> simp [quotedString]

theorem quotedString_quote (visible : quote ≠ '\n') (rest : List Char) :
    quotedString quote escapable (quote :: rest) = ([quote], rest) := by
  cases rest <;> simp [quotedString, visible]

theorem continuedLine_stops (source : List Char) : Stops (· != '\n') (continuedLine source).2 := by
  fun_induction continuedLine source with
  | case1 => exact .nil
  | case2 source ih => exact ih
  | case3 source other => exact .cons (by decide)
  | case4 c source other noBreak ih => exact ih

/-- A string is cut off again in front of a rest that starts like the old one, and if it is closed in
front of any other. -/
theorem quotedString_again (visible : quote ≠ '\n') (source : List Char) {rest : List Char}
    (follows : rest.head? = (quotedString quote escapable source).2.head? ∨
      closesQuote quote escapable (quotedString quote escapable source).1 = true) :
    quotedString quote escapable ((quotedString quote escapable source).1 ++ rest) =
      ((quotedString quote escapable source).1, rest) := by
  have atBreak : ∀ {left : List Char}, rest.head? = ('\n' :: left).head? ∨
      closesQuote quote escapable [] = true → quotedString quote escapable rest = ([], rest) := by
    rintro left (same | closed)
    · cases rest with
      | nil => cases same
      | cons c rest =>
        cases same
        exact quotedString_newline escapable rest
    · cases closed
  fun_induction quotedString quote escapable source with
  | case1 =>
    obtain same | closed := follows
    · have none : rest = [] := by simpa using same
      rw [none]
      rfl
    · cases closed
  | case2 => exact atBreak follows
  | case3 c noBreak =>
    obtain same | closed := follows
    · have none : rest = [] := by simpa using same
      simp [none, quotedString, noBreak]
    · have last : c = quote := by simpa [closesQuote] using closed
      rw [last]
      exact quotedString_quote escapable visible rest
  | case4 d source => exact atBreak follows
  | case5 d source noBreak => exact quotedString_quote escapable visible rest
  | case6 c d source noBreak noQuote escaped ih =>
    have later := ih (by simpa [closesQuote, escaped] using follows)
    rw [List.cons_append, List.cons_append, quotedString, if_neg noBreak, if_neg noQuote, if_pos escaped,
      later]
  | case7 c d source noBreak noQuote unescaped ih =>
    have whole := quotedString_append quote escapable (d :: source)
    have starts : ∃ others, (quotedString quote escapable (d :: source)).1 ++ rest = d :: others ∧
        (rest.head? = (quotedString quote escapable (d :: source)).2.head? ∨
          closesQuote quote escapable (quotedString quote escapable (d :: source)).1 = true) := by
      revert follows whole
      cases (quotedString quote escapable (d :: source)).1 with
      | nil =>
        intro follows whole
        obtain same | closed := follows
        · rw [List.nil_append] at whole
          rw [whole] at same
          cases rest with
          | nil => cases same
          | cons e rest =>
            cases same
            exact ⟨rest, rfl, .inl (by rw [whole]; rfl)⟩
        · exact absurd (by simpa [closesQuote] using closed) noQuote
      | cons e taken =>
        intro follows whole
        have first : e = d := (List.cons.inj whole).1
        subst first
        refine ⟨taken ++ rest, rfl, follows.imp id fun closed => ?_⟩
        simpa [closesQuote, unescaped] using closed
    obtain ⟨others, shape, follows⟩ := starts
    have later := ih follows
    rw [shape] at later
    rw [List.cons_append, shape, quotedString, if_neg noBreak, if_neg noQuote, if_neg unescaped, later]

theorem quotedString_open (source : List Char)
    (opened : closesQuote quote escapable (quotedString quote escapable source).1 = false) :
    Stops (· != '\n') (quotedString quote escapable source).2 := by
  fun_induction quotedString quote escapable source with
  | case1 => exact .nil
  | case2 => exact .cons (by decide)
  | case3 c noBreak => exact .nil
  | case4 d source => exact .cons (by decide)
  | case5 d source noBreak => simp [closesQuote] at opened
  | case6 c d source noBreak noQuote escaped ih =>
    exact ih (by simpa [closesQuote, escaped] using opened)
  | case7 c d source noBreak noQuote unescaped ih =>
    apply ih
    have whole := quotedString_append quote escapable (d :: source)
    revert whole opened
    cases (quotedString quote escapable (d :: source)).1 with
    | nil => exact fun _ _ => rfl
    | cons e taken =>
      intro opened whole
      have first : e = d := (List.cons.inj whole).1
      subst first
      simpa [closesQuote, unescaped] using opened

end

/-- A raw string that is closed is cut off again in front of any rest; another one ends the text. -/
theorem rawString_again (quote : Char) (source : List Char) :
    (∀ rest, (rawString quote source).1.contains quote = true →
      rawString quote ((rawString quote source).1 ++ rest) = ((rawString quote source).1, rest)) ∧
    ((rawString quote source).1.contains quote = false → (rawString quote source).2 = []) := by
  induction source with
  | nil => exact ⟨fun _ closed => (by cases closed), fun _ => rfl⟩
  | cons c source ih =>
    by_cases last : c = quote
    · simp [rawString, last]
    · have other : (quote == c) = false := beq_false_of_ne (Ne.symm last)
      simp only [rawString, last, if_false, List.contains_cons, other, Bool.false_or, List.cons_append]
      refine ⟨fun rest closed => ?_, ih.2⟩
      rw [ih.1 rest closed]

/-- A character in front of a comment's body closes it only together with the body's first one. -/
theorem closesComment_cons {c : Char} {source : List Char}
    (other : ∀ later, c = '*' → source = '/' :: later → False) :
    closesComment (c :: (blockComment source).1) = closesComment (blockComment source).1 := by
  have whole := blockComment_append source
  rw [closesComment.eq_3]
  intro later star slash
  rw [slash] at whole
  exact other _ star whole.symm

/-- A block comment that is closed is cut off again in front of any rest; another one ends the text. -/
theorem blockComment_again (source : List Char) :
    (∀ rest, closesComment (blockComment source).1 = true →
      blockComment ((blockComment source).1 ++ rest) = ((blockComment source).1, rest)) ∧
    (closesComment (blockComment source).1 = false → (blockComment source).2 = []) := by
  fun_induction blockComment source with
  | case1 => exact ⟨fun _ closed => (by cases closed), fun _ => rfl⟩
  | case2 source => exact ⟨fun _ _ => rfl, fun opened => (by cases opened)⟩
  | case3 c source other ih =>
    have whole := blockComment_append source
    rw [closesComment_cons other]
    refine ⟨fun rest closed => ?_, ih.2⟩
    rw [List.cons_append, blockComment.eq_3, ih.1 rest closed]
    intro later star slash
    revert closed whole slash
    cases (blockComment source).1 with
    | nil => exact fun _ closed => nomatch closed
    | cons d taken =>
      rintro whole - slash
      cases slash
      exact other _ star whole.symm

theorem directive?_eq_none_iff {name rest : List Char} :
    directive? name rest = none ↔
      ∀ known ∈ ["macro", "region", "endregion", "define"], name ≠ known.toList := by
  unfold directive?
  split
  · simp_all
  · split
    · simp_all
    · split
      · simp_all
      · split <;> simp_all

theorem symbol?_blank (first : Char) {c : Char} (blank : startsBlank c = true) :
    symbol? [first, c] = none := by
  have visible : ∀ mark : Symbol, mark.text.toList.tail.all (fun c => !startsBlank c) = true := by
    intro mark
    cases mark <;> decide
  apply List.find?_eq_none.mpr
  intro mark _ spelt
  have tail := visible mark
  rw [of_decide_eq_true spelt] at tail
  simp [blank] at tail

end Munch

theorem outside_of_startsBlank (inClass : Char → Bool)
    (none : (inClass ' ' || inClass '\t' || inClass '\r' || inClass '\n') = false) {c : Char}
    (blank : startsBlank c = true) : inClass c = false := by
  simp only [Bool.or_eq_false_iff] at none
  simp only [startsBlank, isGap, isIndent, Bool.or_eq_true, beq_iff_eq] at blank
  obtain ((rfl | rfl) | rfl) | rfl := blank
  · exact none.1.1.1
  · exact none.1.1.2
  · exact none.1.2
  · exact none.2

theorem joins_blank (first : Char) {c : Char} (blank : startsBlank c = true) :
    joins first c = false := by
  have digit : c.isDigit = false := outside_of_startsBlank _ (by decide) blank
  have slash : (c == '/' || c == '*') = false :=
    outside_of_startsBlank (fun c => c == '/' || c == '*') (by decide) blank
  have quote : (c == '"' || c == '\'') = false :=
    outside_of_startsBlank (fun c => c == '"' || c == '\'') (by decide) blank
  simp [joins, symbol?_blank first blank, digit, slash, quote]

/-- What may come behind a token in the place of the old rest: a text that starts like it, with the same
word if it is one, or a blank if the token takes none up. -/
inductive Follows (kind : Kind) (text rest : List Char) : List Char → Prop where
  | alike {other : List Char} (first : other.head? = rest.head?)
      (word : rest.head?.any isWordStart = true → (run isWordChar other).1 = (run isWordChar rest).1) :
      Follows kind text rest other
  | blank {other : List Char} (starts : Stops (fun c => !startsBlank c) other)
      (noBreak : kind ≠ .newline) (ends : runsOn kind text = false) : Follows kind text rest other

namespace Follows

variable {kind : Kind} {text rest other : List Char}

theorem stops (follows : Follows kind text rest other) {inClass : Char → Bool}
    (stops : Stops inClass rest)
    (outside : (inClass ' ' || inClass '\t' || inClass '\r' || inClass '\n') = false) :
    Stops inClass other := by
  cases follows with
  | alike first word => exact stops.of_head? first
  | blank starts noBreak ends =>
    exact starts.weaken fun c visible => outside_of_startsBlank _ outside (by simpa using visible)

theorem stops_joins (follows : Follows kind text rest other) {first : Char}
    (stops : Stops (joins first) rest) : Stops (joins first) other := by
  cases follows with
  | alike same word => exact stops.of_head? same
  | blank starts noBreak ends =>
    exact starts.weaken fun c visible => joins_blank first (by simpa using visible)

theorem head? (follows : Follows kind text rest other) (runs : runsOn kind text = true) :
    other.head? = rest.head? := by
  cases follows with
  | alike first word => exact first
  | blank starts noBreak ends => rw [runs] at ends; cases ends

theorem unknown (follows : Follows kind text rest other)
    (unknown : directive? (run isWordChar rest).1 (run isWordChar rest).2 = none) :
    directive? (run isWordChar other).1 (run isWordChar other).2 = none := by
  have named : ∀ known ∈ ["macro", "region", "endregion", "define"],
      known.toList.head?.any isWordStart = true := by
    decide
  rw [directive?_eq_none_iff] at unknown ⊢
  intro known member same
  have starts := named known member
  have front : other.head? = known.toList.head? := by
    rw [← run_append isWordChar other, same, List.head?_append]
    revert starts
    cases known.toList <;> simp
  cases follows with
  | alike first word =>
    refine unknown known member ?_
    rw [← word (by rw [← first, front]; exact starts), same]
  | blank blank noBreak ends =>
    have noWord : Stops isWordStart other := blank.weaken fun c visible =>
      outside_of_startsBlank _ (by decide) (by simpa using visible)
    obtain ⟨c, head, inWord⟩ := Option.any_eq_true _ _ |>.mp starts
    have outside := noWord c (by rw [front]; exact head)
    rw [inWord] at outside
    cases outside

end Follows

namespace Cut

variable {kind : Kind} {text rest other : List Char}

theorem again (cut : Cut kind text rest) (follows : Follows kind text rest other) :
    Cut kind text other := by
  have named : ∀ {body : List Char}, Stops isWordChar (body ++ rest) → runsOn kind text = true →
      Stops isWordChar (body ++ other) := by
    intro body stops runs
    apply stops.of_head?
    rw [List.head?_append, List.head?_append, follows.head? runs]
  have lined : ∀ {body : List Char}, lineEnd (body ++ rest) = (body, rest) →
      runsOn kind text = true → lineEnd (body ++ other) = (body, other) := by
    intro body ends runs
    obtain ⟨inside, stops⟩ := run_eq_iff.mp ends
    exact run_eq inside (stops.of_head? (follows.head? runs))
  cases cut with
  | newline inside stops =>
    cases follows with
    | alike first word => exact .newline inside (stops.of_head? first)
    | blank starts noBreak ends => exact absurd rfl noBreak
  | word starts inside stops => exact .word starts inside (follows.stops stops (by decide))
  | hexadecimal inside stops => exact .hexadecimal inside (follows.stops stops (by decide))
  | color inside stops => exact .color inside (follows.stops stops (by decide))
  | whole starts inside stops plain =>
    exact .whole starts inside (follows.stops stops (by decide)) fun zero none =>
      follows.stops (plain zero none) (by decide)
  | fraction starts inside goesOn within stops =>
    exact .fraction starts inside goesOn within (follows.stops stops (by decide))
  | endDot starts inside stops => exact .endDot starts inside (follows.stops stops (by decide))
  | startDot starts inside stops => exact .startDot starts inside (follows.stops stops (by decide))
  | @macroLine body rest stops ends =>
    have again := @continuedLine_again (body ++ rest) other
    simp only [ends] at again
    exact .macroLine (named stops rfl) (again (follows.head? rfl))
  | regionBegin stops ends => exact .regionBegin (named stops rfl) (lined ends rfl)
  | regionEnd stops ends => exact .regionEnd (named stops rfl) (lined ends rfl)
  | define stops => exact .define (follows.stops stops (by decide))
  | hash unknown => exact .hash (follows.unknown unknown)
  | @string quote body rest quotes ends =>
    have runs : runsOn .string (quote :: body) = !closesQuote quote (escapes quote) body := by
      obtain rfl | rfl := quotes <;> rfl
    have visible : quote ≠ '\n' := by
      obtain rfl | rfl := quotes <;> decide
    have again := @quotedString_again quote (escapes quote) visible (body ++ rest) other
    simp only [ends] at again
    refine .string quotes (again ?_)
    cases closed : closesQuote quote (escapes quote) body with
    | true => exact .inr rfl
    | false => exact .inl (follows.head? (by rw [runs, closed]; rfl))
  | @rawString quote body rest quotes ends =>
    obtain ⟨closed, opened⟩ := rawString_again quote (body ++ rest)
    simp only [ends] at closed opened
    refine .rawString quotes ?_
    cases closes : body.contains quote with
    | true => exact closed other closes
    | false =>
      have runs : runsOn .string ('@' :: quote :: body) = true := by
        show (!body.contains quote) = true
        rw [closes]
        rfl
      have none : other.head? = rest.head? := follows.head? runs
      rw [opened closes] at none ends
      rw [List.head?_eq_none_iff.mp none, ends]
  | lineComment ends => exact .lineComment (lined ends rfl)
  | @blockComment body rest ends =>
    obtain ⟨closed, opened⟩ := blockComment_again (body ++ rest)
    simp only [ends] at closed opened
    refine .blockComment ?_
    cases closes : closesComment body with
    | true => exact closed other closes
    | false =>
      have runs : runsOn .blockComment ("/*".toList ++ body) = true := by
        show (!closesComment body) = true
        rw [closes]
        rfl
      have none : other.head? = rest.head? := follows.head? runs
      rw [opened closes] at none ends
      rw [List.head?_eq_none_iff.mp none, ends]
  | pair spelt => exact .pair spelt
  | single spelt short stops => exact .single spelt short (follows.stops_joins stops)
  | unidentified unknown short visible stops =>
    exact .unidentified unknown short visible (follows.stops_joins stops)

theorem stops_of_runsOn (cut : Cut kind text rest) (runs : runsOn kind text = true) :
    Stops (· != '\n') rest := by
  cases cut with
  | @macroLine body rest stops ends =>
    have ended := continuedLine_stops (body ++ rest)
    rwa [ends] at ended
  | regionBegin stops ends => exact (run_eq_iff.mp ends).2
  | regionEnd stops ends => exact (run_eq_iff.mp ends).2
  | lineComment ends => exact (run_eq_iff.mp ends).2
  | @string quote body rest quotes ends =>
    have opened := @quotedString_open quote (escapes quote) (body ++ rest)
    simp only [ends] at opened
    obtain rfl | rfl := quotes
    · exact opened (by simpa [runsOn] using runs)
    · exact opened (by simpa [runsOn] using runs)
  | @rawString quote body rest quotes ends =>
    have opened := (rawString_again quote (body ++ rest)).2
    simp only [ends] at opened
    rw [opened ((Bool.not_eq_true' _).mp runs)]
    exact .nil
  | @blockComment body rest ends =>
    have opened := (blockComment_again (body ++ rest)).2
    simp only [ends] at opened
    rw [opened ((Bool.not_eq_true' _).mp runs)]
    exact .nil
  | word starts inside stops =>
    unfold wordKind at runs
    split at runs <;> cases runs
  | _ => cases runs

end Cut

theorem Munch.exists_text_eq {first : Char} (source : List Char) (visible : isGap first = false) :
    ∃ others, (read first source).text = first :: others ∧
      others ++ (read first source).rest = source := by
  have whole := read_append first source
  obtain ⟨c, others, text⟩ := List.exists_cons_of_ne_nil (read_spells source visible).ne_nil
  rw [text, List.cons_append, List.cons.injEq] at whole
  exact ⟨others, by rw [text, whole.1], whole.2⟩

theorem Cut.newline_text {text rest : List Char} (cut : Cut .newline text rest) :
    text.head? = some '\n' := by
  generalize kindEq : Kind.newline = kind at cut
  cases cut with
  | newline inside stops => rfl
  | word starts inside stops =>
    unfold wordKind at kindEq
    split at kindEq <;> cases kindEq
  | _ => cases kindEq

namespace Respaced

variable {token : Munch} {rest other : List Char}

theorem blankStart {changed : List Char} (gaps : ∀ c ∈ changed, isGap c = true) (some : changed ≠ [])
    (others : List Char) : Stops (fun c => !startsBlank c) (changed ++ others) := by
  obtain ⟨c, changed, rfl⟩ := List.exists_cons_of_ne_nil some
  have gap : isGap c = true := gaps c List.mem_cons_self
  exact .cons (by simp [startsBlank, gap])

theorem ends_of_kind_ne {gap source : List Char} {first : Char} (blank : ∀ c ∈ gap, isGap c = true)
    (cut : Cut token.kind token.text (gap ++ first :: source))
    (noBreak : (read first source).kind ≠ .newline) : runsOn token.kind token.text = false := by
  cases runs : runsOn token.kind token.text with
  | false => rfl
  | true =>
    have stops := cut.stops_of_runsOn runs
    cases gap with
    | nil =>
      have isBreak : first = '\n' := by simpa using stops.head
      subst isBreak
      exact absurd rfl noBreak
    | cons c gap =>
      have isBreak : c = '\n' := by simpa using stops.head
      have gapped := blank c List.mem_cons_self
      subst isBreak
      exact absurd gapped (by decide)

/-- The new text starts like the old one, or with a blank where the token takes none up. -/
theorem starts (respaced : Respaced (some token) rest other) (cut : Cut token.kind token.text rest) :
    other.head? = rest.head? ∨ Stops (fun c => !startsBlank c) other ∧ token.kind ≠ .newline ∧
      runsOn token.kind token.text = false := by
  cases respaced with
  | finish blank change =>
    obtain ⟨gaps, rfl | ⟨noBreak, ends⟩⟩ := change
    · exact .inl rfl
    · refine .inr ⟨?_, noBreak, ends⟩
      by_cases none : other = []
      · rw [none]
        exact .nil
      · simpa using blankStart gaps none []
  | @token _ gap changed source others first blank visible change later =>
    obtain ⟨more, text, whole⟩ := exists_text_eq source visible
    obtain ⟨gaps, rfl | ⟨noBreak, allowed⟩⟩ := change
    · left
      simp [List.head?_append, text]
    · right
      rw [List.append_assoc]
      by_cases broken : (read first source).kind = .newline
      · have ends : runsOn token.kind token.text = false := by simpa [broken] using allowed
        refine ⟨?_, noBreak, ends⟩
        by_cases none : changed = []
        · have nextCut : (read first source).IsCut := read_cut source visible
          unfold IsCut at nextCut
          rw [broken] at nextCut
          have front := nextCut.newline_text
          rw [text] at front
          cases front
          rw [none, text]
          exact .cons (by decide)
        · exact blankStart gaps none _
      · have some : changed ≠ [] := by simpa [broken] using allowed
        exact ⟨blankStart gaps some _, noBreak, ends_of_kind_ne blank cut broken⟩

theorem gap_eq_nil {gap others : List Char} (blank : ∀ c ∈ gap, isGap c = true)
    (starts : (gap ++ others).head?.any isWordStart = true) : gap = [] := by
  cases gap with
  | nil => rfl
  | cons c gap =>
    have inWord : isWordChar c = true := by
      rw [isWordChar, show isWordStart c = true from starts, Bool.true_or]
    have visible := startsBlank_of_isWordChar inWord
    rw [startsBlank, blank c List.mem_cons_self] at visible
    cases visible

theorem word_eq (respaced : Respaced (some token) rest other) (same : other.head? = rest.head?)
    (wordStart : rest.head?.any isWordStart = true) :
    (run isWordChar other).1 = (run isWordChar rest).1 := by
  cases respaced with
  | finish blank change =>
    have none : rest = [] := gap_eq_nil blank (by rw [List.append_nil]; exact wordStart)
    rw [none] at wordStart
    cases wordStart
  | @token _ gap changed source others first blank visible change later =>
    have noGap : gap = [] := gap_eq_nil blank wordStart
    have noChange : changed = [] := by
      rw [← same, List.append_assoc] at wordStart
      exact gap_eq_nil change.1 wordStart
    subst noGap noChange
    have wordStart : isWordStart first = true := wordStart
    have isWord : read first source = word first source := by
      unfold Munch.read
      rw [if_pos wordStart]
    have firstInside : isWordChar first = true := by
      rw [isWordChar, wordStart, Bool.true_or]
    have inside : ∀ c ∈ first :: (run isWordChar source).1, isWordChar c = true :=
      List.forall_mem_cons.mpr ⟨firstInside, run_inside source⟩
    have stops : Stops isWordChar others := by
      have ended : Stops isWordChar (read first source).rest := by
        rw [isWord]
        exact run_stops source
      obtain alike | ⟨blankStart, _⟩ := later.starts (read_cut source visible)
      · exact ended.of_head? alike
      · exact blankStart.weaken fun c blank =>
          outside_of_startsBlank _ (by decide) (by simpa using blank)
    rw [isWord]
    show (run isWordChar (first :: (run isWordChar source).1 ++ others)).1 =
      (run isWordChar (first :: source)).1
    rw [run_eq inside stops]
    simp [run, firstInside]

theorem follows (respaced : Respaced (some token) rest other) (cut : Cut token.kind token.text rest) :
    Follows token.kind token.text rest other := by
  obtain same | ⟨blankStart, noBreak, ends⟩ := respaced.starts cut
  · exact .alike same (respaced.word_eq same)
  · exact .blank blankStart noBreak ends

end Respaced

namespace Cursor

theorem next_eq {cursor : Cursor} {gap source : List Char} {first : Char}
    (rest : cursor.rest = gap ++ first :: source) (blank : ∀ c ∈ gap, isGap c = true)
    (visible : isGap first = false) :
    ∃ token, cursor.next = (some token, cursor.skipGap.advance (read first source)) ∧
      token.unplaced = ⟨(read first source).kind, (read first source).payload, 0, 0⟩ := by
  have skipped : cursor.skipGap.rest = first :: source := by
    show cursor.rest.dropWhile isGap = _
    rw [rest, List.dropWhile_append_of_pos blank, List.dropWhile_cons_of_neg (by simp [visible])]
  unfold next
  simp only [skipped]
  exact ⟨_, rfl, rfl⟩

theorem tokens_of_gap {cursor : Cursor} (blank : ∀ c ∈ cursor.rest, isGap c = true) (bound : Nat) :
    cursor.tokens bound = [] := by
  have skipped : cursor.skipGap.rest = [] := by
    show cursor.rest.dropWhile isGap = []
    rw [← List.append_nil cursor.rest, List.dropWhile_append_of_pos blank]
    rfl
  cases bound with
  | zero => rfl
  | succ bound =>
    unfold tokens next
    simp only [skipped]

theorem tokens_respaced {before : Option Munch} {rest other : List Char}
    (respaced : Respaced before rest other) {first second : Cursor} {bound limit : Nat}
    (firstRest : first.rest = rest) (secondRest : second.rest = other)
    (enough : rest.length ≤ bound) (within : other.length ≤ limit) :
    (first.tokens bound).map Token.unplaced = (second.tokens limit).map Token.unplaced := by
  induction respaced generalizing first second bound limit with
  | finish blank change =>
    rw [tokens_of_gap (by rw [firstRest]; exact blank), tokens_of_gap (by rw [secondRest]; exact change.1)]
  | @token before gap changed source others c blank visible change later ih =>
    obtain ⟨more, text, whole⟩ := exists_text_eq source visible
    have nextCut : Cut (read c source).kind (read c source).text others :=
      (read_cut source visible).again (later.follows (read_cut source visible))
    have reread : read c (more ++ others) = ⟨(read c source).kind, (read c source).text, others⟩ := by
      obtain ⟨c', more', text', reread⟩ := nextCut.read
      rw [text] at text'
      cases text'
      exact reread
    obtain ⟨token, next, placed⟩ := next_eq firstRest blank visible
    have secondShape : second.rest = changed ++ c :: (more ++ others) := by
      rw [secondRest, text]
      simp
    obtain ⟨token', next', placed'⟩ := next_eq secondShape change.1 visible
    have samePayload : (read c (more ++ others)).payload = (read c source).payload := by
      rw [reread]
      rfl
    have sameToken : token.unplaced = token'.unplaced := by
      rw [placed, placed', samePayload, reread]
    cases bound with
    | zero => simp at enough
    | succ bound => cases limit with
      | zero => simp [text] at within
      | succ limit =>
        rw [tokens, next, tokens, next', List.map_cons, List.map_cons, sameToken]
        congr 1
        apply ih
        · rfl
        · show (read c (more ++ others)).rest = others
          rw [reread]
        · have shorter := congrArg List.length whole
          simp only [List.length_append, List.length_cons] at enough shorter
          omega
        · simp only [List.length_append, text, List.length_cons] at within
          omega

end Cursor

theorem scan_respaced {source other : String} (respaced : Respaced none source.toList other.toList) :
    (scan source).map Token.unplaced = (scan other).map Token.unplaced :=
  Cursor.tokens_respaced respaced rfl rfl (Nat.le_refl _) (Nat.le_refl _)

end GmlLayout
