import GmlLayout.Proofs.Token.Spelling

/-!
Where a token ends. A text is cut at a place exactly if it has one of the shapes below, and each shape
says what may not come next. So a token that has been cut off once is cut off again in front of any text
that its shape allows.
-/

namespace GmlLayout

def Stops (inClass : Char → Bool) (rest : List Char) : Prop :=
  ∀ c ∈ rest.head?, inClass c = false

namespace Stops

variable {inClass other : Char → Bool} {rest : List Char}

theorem nil : Stops inClass [] :=
  fun _ member => nomatch member

theorem cons {c : Char} (outside : inClass c = false) : Stops inClass (c :: rest) := by
  intro _ member
  cases member
  exact outside

theorem head {c : Char} (stops : Stops inClass (c :: rest)) : inClass c = false :=
  stops c rfl

theorem weaken (stops : Stops inClass rest) (within : ∀ c, inClass c = false → other c = false) :
    Stops other rest :=
  fun c member => within c (stops c member)

theorem of_head? {others : List Char} (stops : Stops inClass rest) (same : others.head? = rest.head?) :
    Stops inClass others := by
  unfold Stops
  rw [same]
  exact stops

end Stops

namespace Munch

section

variable {inClass : Char → Bool} {taken rest : List Char}

theorem run_eq (inside : ∀ c ∈ taken, inClass c = true) (stops : Stops inClass rest) :
    run inClass (taken ++ rest) = (taken, rest) := by
  have none : rest.takeWhile inClass = [] ∧ rest.dropWhile inClass = rest := by
    cases rest with
    | nil => exact ⟨rfl, rfl⟩
    | cons c rest => simp [stops.head]
  unfold run
  rw [List.takeWhile_append_of_pos inside, List.dropWhile_append_of_pos inside, none.1, none.2,
    List.append_nil]

theorem run_inside (source : List Char) : ∀ c ∈ (run inClass source).1, inClass c = true :=
  List.all_eq_true.mp List.all_takeWhile

theorem run_stops (source : List Char) : Stops inClass (run inClass source).2 := by
  intro c member
  have stops := List.head?_dropWhile_not inClass source
  rw [show (source.dropWhile inClass).head? = some c from member] at stops
  exact stops

theorem run_eq_iff : run inClass (taken ++ rest) = (taken, rest) ↔
    (∀ c ∈ taken, inClass c = true) ∧ Stops inClass rest := by
  refine ⟨fun split => ?_, fun ⟨inside, stops⟩ => run_eq inside stops⟩
  have inside : ∀ c ∈ (run inClass (taken ++ rest)).1, inClass c = true := run_inside _
  have stops : Stops inClass (run inClass (taken ++ rest)).2 := run_stops _
  rw [split] at inside stops
  exact ⟨inside, stops⟩

end

def escapes (quote : Char) : Char → Bool :=
  if quote = '"' then fun c => c == '"' || c == '\\' else (· == '\'')

def joins (first second : Char) : Bool :=
  (symbol? [first, second]).isSome || (first == '.' && second.isDigit)
    || (first == '/' && (second == '/' || second == '*'))
    || (first == '@' && (second == '"' || second == '\''))

def startsLong (c : Char) : Bool :=
  isWordStart c || c.isDigit || ['\n', '#', '"', '\'', '$'].contains c

end Munch

open Munch

/-- The kind and the text of a token that is cut off in front of the rest. -/
inductive Cut : Kind → List Char → List Char → Prop where
  | newline {blanks rest : List Char} (inside : ∀ c ∈ blanks, isIndent c = true)
      (stops : Stops isIndent rest) : Cut .newline ('\n' :: blanks) rest
  | word {first : Char} {others rest : List Char} (starts : isWordStart first = true)
      (inside : ∀ c ∈ others, isWordChar c = true) (stops : Stops isWordChar rest) :
      Cut (wordKind (first :: others)) (first :: others) rest
  | hexadecimal {digits rest : List Char} (inside : ∀ c ∈ digits, isHexDigit c = true)
      (stops : Stops isHexDigit rest) : Cut .number ('0' :: 'x' :: digits) rest
  | color {digits rest : List Char} (inside : ∀ c ∈ digits, isHexDigit c = true)
      (stops : Stops isHexDigit rest) : Cut .number ('$' :: digits) rest
  | whole {first : Char} {others rest : List Char} (starts : first.isDigit = true)
      (inside : ∀ c ∈ others, c.isDigit = true)
      (stops : Stops (fun c => c.isDigit || c == '.') rest)
      (plain : first = '0' → others = [] → Stops (· == 'x') rest) : Cut .number (first :: others) rest
  | fraction {first digit : Char} {others digits rest : List Char} (starts : first.isDigit = true)
      (inside : ∀ c ∈ others, c.isDigit = true) (goesOn : digit.isDigit = true)
      (within : ∀ c ∈ digits, c.isDigit = true) (stops : Stops Char.isDigit rest) :
      Cut .number (first :: others ++ '.' :: digit :: digits) rest
  | endDot {first : Char} {others rest : List Char} (starts : first.isDigit = true)
      (inside : ∀ c ∈ others, c.isDigit = true) (stops : Stops Char.isDigit rest) :
      Cut .numberEndDot (first :: others ++ ['.']) rest
  | startDot {digit : Char} {digits rest : List Char} (starts : digit.isDigit = true)
      (inside : ∀ c ∈ digits, c.isDigit = true) (stops : Stops Char.isDigit rest) :
      Cut .numberStartDot ('.' :: digit :: digits) rest
  | macroLine {body rest : List Char} (named : Stops isWordChar (body ++ rest))
      (ends : continuedLine (body ++ rest) = (body, rest)) :
      Cut .macroLine ("#macro".toList ++ body) rest
  | regionBegin {body rest : List Char} (named : Stops isWordChar (body ++ rest))
      (ends : lineEnd (body ++ rest) = (body, rest)) : Cut .regionBegin ("#region".toList ++ body) rest
  | regionEnd {body rest : List Char} (named : Stops isWordChar (body ++ rest))
      (ends : lineEnd (body ++ rest) = (body, rest)) : Cut .regionEnd ("#endregion".toList ++ body) rest
  | define {rest : List Char} (named : Stops isWordChar rest) : Cut .define "#define".toList rest
  | hash {rest : List Char}
      (unknown : directive? (run isWordChar rest).1 (run isWordChar rest).2 = none) :
      Cut (.symbol .hash) ['#'] rest
  | string {quote : Char} {body rest : List Char} (quotes : quote = '"' ∨ quote = '\'')
      (ends : quotedString quote (escapes quote) (body ++ rest) = (body, rest)) :
      Cut .string (quote :: body) rest
  | rawString {quote : Char} {body rest : List Char} (quotes : quote = '"' ∨ quote = '\'')
      (ends : Munch.rawString quote (body ++ rest) = (body, rest)) :
      Cut .string ('@' :: quote :: body) rest
  | lineComment {body rest : List Char} (ends : lineEnd (body ++ rest) = (body, rest)) :
      Cut .lineComment ("//".toList ++ body) rest
  | blockComment {body rest : List Char} (ends : Munch.blockComment (body ++ rest) = (body, rest)) :
      Cut .blockComment ("/*".toList ++ body) rest
  | pair {first second : Char} {mark : Symbol} {rest : List Char}
      (spelt : symbol? [first, second] = some mark) : Cut (.symbol mark) [first, second] rest
  | single {first : Char} {mark : Symbol} {rest : List Char} (spelt : symbol? [first] = some mark)
      (short : startsLong first = false) (stops : Stops (joins first) rest) :
      Cut (.symbol mark) [first] rest
  | unidentified {only : Char} {rest : List Char} (unknown : symbol? [only] = none)
      (short : startsLong only = false) (visible : isGap only = false)
      (stops : Stops (joins only) rest) :
      Cut .unidentified [only] rest

namespace Munch

def IsCut (munch : Munch) : Prop :=
  Cut munch.kind munch.text munch.rest

theorem newline_cut (source : List Char) : (newline source).IsCut :=
  .newline (run_inside source) (run_stops source)

theorem word_cut {first : Char} (source : List Char) (starts : isWordStart first = true) :
    (word first source).IsCut :=
  .word starts (run_inside source) (run_stops source)

theorem decimal_cut {first : Char} {others source : List Char} (starts : first.isDigit = true)
    (inside : ∀ c ∈ others, c.isDigit = true) (stops : Stops Char.isDigit source)
    (plain : first = '0' → others = [] → Stops (· == 'x') source) :
    (decimal (first :: others) source).IsCut := by
  unfold decimal
  split
  · rename_i digit fraction
    split
    · rename_i goesOn
      have cut := Cut.fraction starts inside goesOn (run_inside fraction) (run_stops fraction)
      simpa [IsCut, ofSplit] using cut
    · rename_i other
      exact .endDot starts inside (.cons (by simpa using other))
  · exact .endDot starts inside .nil
  · rename_i noDigit noDot
    refine .whole starts inside ?_ plain
    intro c member
    cases source with
    | nil => cases member
    | cons d source =>
      cases member
      have noPoint : c ≠ '.' := by
        rintro rfl
        cases source with
        | nil => exact noDot rfl
        | cons d source => exact noDigit d source rfl
      simp [stops.head, noPoint]

theorem number_cut {first : Char} (source : List Char) (starts : first.isDigit = true) :
    (number first source).IsCut := by
  unfold number
  split
  · exact .hexadecimal (run_inside _) (run_stops _)
  · rename_i plain
    refine decimal_cut starts (run_inside source) (run_stops source) ?_
    intro zero none c member
    have whole := run_append Char.isDigit source
    rw [none, List.nil_append] at whole
    rw [whole] at member
    cases source with
    | nil => cases member
    | cons d source =>
      cases member
      simpa using fun same => plain source zero (by rw [same])

theorem resplit {split : List Char → List Char × List Char} {source : List Char}
    (whole : (split source).1 ++ (split source).2 = source) :
    split ((split source).1 ++ (split source).2) = ((split source).1, (split source).2) := by
  rw [whole]

theorem lineEnd_append (source : List Char) : (lineEnd source).1 ++ (lineEnd source).2 = source :=
  run_append _ source

theorem directive?_cut {source : List Char} {munch : Munch}
    (known : directive? (run isWordChar source).1 (run isWordChar source).2 = some munch) :
    munch.IsCut := by
  have named : Stops isWordChar (run isWordChar source).2 := run_stops source
  generalize (run isWordChar source).1 = name at known
  generalize (run isWordChar source).2 = rest at known named
  have continued : Stops isWordChar ((continuedLine rest).1 ++ (continuedLine rest).2) := by
    rw [continuedLine_append]
    exact named
  have lined : Stops isWordChar ((lineEnd rest).1 ++ (lineEnd rest).2) := by
    rw [lineEnd_append]
    exact named
  unfold directive? at known
  split at known
  · rename_i name
    cases known
    subst name
    exact .macroLine continued (resplit (continuedLine_append rest))
  · split at known
    · rename_i name
      cases known
      subst name
      exact .regionBegin lined (resplit (lineEnd_append rest))
    · split at known
      · rename_i name
        cases known
        subst name
        exact .regionEnd lined (resplit (lineEnd_append rest))
      · split at known
        · rename_i name
          cases known
          subst name
          exact .define named
        · cases known

theorem hash_cut (source : List Char) : (hash source).IsCut := by
  unfold hash
  split
  · rename_i known
    exact directive?_cut known
  · rename_i unknown
    exact .hash unknown

theorem single_cut {first : Char} {source : List Char} (short : startsLong first = false)
    (visible : isGap first = false) (stops : Stops (joins first) source) :
    (single first source).IsCut := by
  unfold single
  split
  · rename_i spelt
    exact .single spelt short stops
  · rename_i unknown
    exact .unidentified unknown short visible stops

theorem punctuation_cut {first : Char} {source : List Char} (short : startsLong first = false)
    (visible : isGap first = false)
    (stops : Stops (fun c => (symbol? [first, c]).isNone && joins first c) source) :
    (punctuation first source).IsCut := by
  unfold punctuation
  split
  · exact single_cut short visible .nil
  · rename_i second rest
    split
    · rename_i spelt
      exact .pair spelt
    · rename_i unpaired
      exact single_cut short visible (.cons (by simpa [unpaired] using stops.head))

theorem slash_cut (source : List Char) : (slash source).IsCut := by
  unfold slash
  split
  · rename_i rest
    have second : lineEnd ('/' :: rest) = ('/' :: (lineEnd rest).1, (lineEnd rest).2) := rfl
    rw [second]
    exact .lineComment (resplit (lineEnd_append rest))
  · exact .blockComment (resplit (blockComment_append _))
  · rename_i noLine noBlock
    refine punctuation_cut (by decide) (by decide) ?_
    intro c member
    cases source with
    | nil => cases member
    | cons d rest =>
      cases member
      have line : c ≠ '/' := fun same => noLine rest (by rw [same])
      have block : c ≠ '*' := fun same => noBlock rest (by rw [same])
      simp [joins, line, block]

theorem atSign_cut (source : List Char) : (atSign source).IsCut := by
  unfold atSign
  split
  · exact .rawString (.inl rfl) (resplit (rawString_append _ _))
  · exact .rawString (.inr rfl) (resplit (rawString_append _ _))
  · rename_i noDouble noSingle
    refine .unidentified (by decide) (by decide) (by decide) ?_
    intro c member
    cases source with
    | nil => cases member
    | cons d rest =>
      cases member
      have double : c ≠ '"' := fun same => noDouble rest (by rw [same])
      have single : c ≠ '\'' := fun same => noSingle rest (by rw [same])
      have unpaired : symbol? ['@', c] = none := by simp [symbol?, Symbol.all, Symbol.text]
      simp [joins, double, single, unpaired]

theorem dot_cut (source : List Char) : (dot source).IsCut := by
  unfold dot
  split
  · rename_i digit rest
    split
    · rename_i starts
      have second : run Char.isDigit (digit :: rest) =
          (digit :: (run Char.isDigit rest).1, (run Char.isDigit rest).2) := by
        simp [run, starts]
      rw [second]
      exact .startDot starts (run_inside rest) (run_stops rest)
    · rename_i other
      exact punctuation_cut (by decide) (by decide) (.cons (by simp [joins, other]))
  · exact punctuation_cut (by decide) (by decide) .nil

theorem read_cut {first : Char} (source : List Char) (noGap : isGap first = false) :
    (read first source).IsCut := by
  unfold read
  split
  · exact word_cut source ‹_›
  · split
    · exact number_cut source ‹_›
    · rename_i noWord noDigit
      split
      · exact newline_cut source
      · exact hash_cut source
      · exact atSign_cut source
      · exact .string (.inl rfl) (resplit (quotedString_append _ _ _))
      · exact .string (.inr rfl) (resplit (quotedString_append _ _ _))
      · exact dot_cut source
      · exact .color (run_inside _) (run_stops _)
      · exact slash_cut source
      · rename_i noBreak noHash noAt noDouble noSingle noDot noDollar noSlash
        have short : startsLong first = false := by
          simp [startsLong, noWord, noDigit]
          exact ⟨noBreak, noHash, noDouble, noSingle, noDollar⟩
        refine punctuation_cut short noGap fun c member => ?_
        have dot : (first == '.') = false := beq_false_of_ne noDot
        have slash : (first == '/') = false := beq_false_of_ne noSlash
        have atSign : (first == '@') = false := beq_false_of_ne noAt
        simp [joins, dot, slash, atSign]

theorem decimal_whole {whole rest : List Char} (stops : Stops (fun c => c.isDigit || c == '.') rest) :
    decimal whole rest = ⟨.number, whole, rest⟩ := by
  unfold decimal
  split
  · exact absurd stops.head (by decide)
  · exact absurd stops.head (by decide)
  · rfl

theorem decimal_fraction {whole digits rest : List Char} {digit : Char} (goesOn : digit.isDigit = true)
    (within : ∀ c ∈ digits, c.isDigit = true) (stops : Stops Char.isDigit rest) :
    decimal whole ('.' :: digit :: (digits ++ rest)) =
      ⟨.number, whole ++ '.' :: digit :: digits, rest⟩ := by
  simp only [decimal, goesOn, if_true, run_eq within stops, ofSplit]
  simp

theorem decimal_endDot {whole rest : List Char} (stops : Stops Char.isDigit rest) :
    decimal whole ('.' :: rest) = ⟨.numberEndDot, whole ++ ['.'], rest⟩ := by
  cases rest with
  | nil => rfl
  | cons d rest =>
    have other : d.isDigit = false := stops.head
    simp [decimal, other]

theorem number_eq_decimal {first : Char} {others rest : List Char}
    (inside : ∀ c ∈ others, c.isDigit = true) (stops : Stops Char.isDigit rest)
    (plain : first = '0' → others = [] → Stops (· == 'x') rest) :
    number first (others ++ rest) = decimal (first :: others) rest := by
  unfold number
  split
  · rename_i digits same
    cases others with
    | nil =>
      rw [List.nil_append] at same
      subst same
      exact absurd (plain rfl rfl).head (by decide)
    | cons d others =>
      cases same
      exact absurd (inside 'x' List.mem_cons_self) (by decide)
  · rw [run_eq inside stops]

theorem hash_eq {name rest : List Char} {munch : Munch} (inside : ∀ c ∈ name, isWordChar c = true)
    (named : Stops isWordChar rest) (known : directive? name rest = some munch) :
    hash (name ++ rest) = munch := by
  unfold hash
  rw [run_eq inside named, known]

theorem single_eq {first : Char} {mark : Symbol} (spelt : symbol? [first] = some mark)
    (source : List Char) : single first source = ⟨.symbol mark, [first], source⟩ := by
  unfold single
  rw [spelt]

theorem symbol?_of_joins {first second : Char} (apart : joins first second = false) :
    symbol? [first, second] = none := by
  simp only [joins, Bool.or_eq_false_iff, Option.isSome_eq_false_iff, Option.isNone_iff_eq_none]
    at apart
  exact apart.1.1.1

theorem punctuation_eq_single {first : Char} {source : List Char} (stops : Stops (joins first) source) :
    punctuation first source = single first source := by
  cases source with
  | nil => rfl
  | cons second source => simp only [punctuation, symbol?_of_joins stops.head]

theorem isWordStart_iff {c : Char} : isWordStart c = true ↔
    (('A' ≤ c ∧ c ≤ 'Z') ∨ ('a' ≤ c ∧ c ≤ 'z')) ∨ c = '_' := by
  show (decide (c.val ≥ 'A'.val ∧ c.val ≤ 'Z'.val) ||
    decide (c.val ≥ 'a'.val) && decide (c.val ≤ 'z'.val) || c == '_') = true ↔ _
  simp only [Bool.or_eq_true, Bool.and_eq_true, decide_eq_true_eq, beq_iff_eq]
  rfl

theorem isWordStart_of_isDigit {c : Char} (digit : c.isDigit = true) : isWordStart c = false := by
  have low : c ≤ '9' := of_decide_eq_true (Bool.and_eq_true_iff.mp digit).2
  rw [Bool.eq_false_iff]
  intro starts
  obtain (upper | lower) | rfl := isWordStart_iff.mp starts
  · exact absurd (Char.le_trans upper.1 low) (by decide)
  · exact absurd (Char.le_trans lower.1 low) (by decide)
  · exact absurd digit (by decide)

theorem read_of_isDigit {first : Char} (digit : first.isDigit = true) (source : List Char) :
    read first source = number first source := by
  unfold read
  rw [isWordStart_of_isDigit digit, digit]
  rfl

theorem dot_eq_single {source : List Char} (stops : Stops (joins '.') source) :
    dot source = single '.' source := by
  cases source with
  | nil => rfl
  | cons second source =>
    have noDigit : second.isDigit = false := by
      have apart := stops.head
      simp only [joins, Bool.or_eq_false_iff, beq_self_eq_true, Bool.true_and] at apart
      exact apart.1.1.2
    rw [dot, noDigit, if_neg Bool.false_ne_true, punctuation_eq_single stops]

theorem slash_eq_single {source : List Char} (stops : Stops (joins '/') source) :
    slash source = single '/' source := by
  unfold slash
  split
  · exact absurd stops.head (by decide)
  · exact absurd stops.head (by decide)
  · exact punctuation_eq_single stops

theorem atSign_eq_single {source : List Char} (stops : Stops (joins '@') source) :
    atSign source = single '@' source := by
  unfold atSign
  split
  · exact absurd stops.head (by decide)
  · exact absurd stops.head (by decide)
  · rfl

theorem read_eq_single {first : Char} {source : List Char} (short : startsLong first = false)
    (stops : Stops (joins first) source) : read first source = single first source := by
  simp only [startsLong, Bool.or_eq_false_iff, List.contains_eq_mem, decide_eq_false_iff_not,
    List.mem_cons, List.not_mem_nil, or_false, not_or] at short
  obtain ⟨⟨noWord, noDigit⟩, noBreak, noHash, noDouble, noSingle, noDollar⟩ := short
  unfold read
  rw [noWord, noDigit]
  simp only [Bool.false_eq_true, if_false]
  split
  · exact absurd rfl noBreak
  · exact absurd rfl noHash
  · exact atSign_eq_single stops
  · exact absurd rfl noDouble
  · exact absurd rfl noSingle
  · exact dot_eq_single stops
  · exact absurd rfl noDollar
  · exact slash_eq_single stops
  · exact punctuation_eq_single stops

end Munch

namespace Cut

variable {kind : Kind} {text rest : List Char}

theorem read (cut : Cut kind text rest) :
    ∃ first others, text = first :: others ∧ Munch.read first (others ++ rest) = ⟨kind, text, rest⟩ := by
  cases cut with
  | newline inside stops =>
    refine ⟨_, _, rfl, ?_⟩
    show Munch.newline _ = _
    rw [Munch.newline, run_eq inside stops]
    rfl
  | word starts inside stops =>
    refine ⟨_, _, rfl, ?_⟩
    unfold Munch.read
    rw [if_pos starts, Munch.word, run_eq inside stops]
    rfl
  | @hexadecimal digits rest inside stops =>
    refine ⟨_, _, rfl, ?_⟩
    show Munch.ofSplit _ _ (run isHexDigit (digits ++ rest)) = _
    rw [run_eq inside stops]
    rfl
  | color inside stops =>
    refine ⟨_, _, rfl, ?_⟩
    show Munch.ofSplit _ _ (run isHexDigit _) = _
    rw [run_eq inside stops]
    rfl
  | whole starts inside stops plain =>
    refine ⟨_, _, rfl, ?_⟩
    rw [read_of_isDigit starts, number_eq_decimal inside (stops.weaken (by simp +contextual)) plain,
      decimal_whole stops]
  | fraction starts inside goesOn within stops =>
    refine ⟨_, _ ++ _, rfl, ?_⟩
    rw [read_of_isDigit starts, List.append_assoc, List.cons_append, List.cons_append,
      number_eq_decimal inside (.cons (by decide)) fun _ _ => .cons (by decide),
      decimal_fraction goesOn within stops]
  | endDot starts inside stops =>
    refine ⟨_, _ ++ _, rfl, ?_⟩
    rw [read_of_isDigit starts, List.append_assoc, List.singleton_append,
      number_eq_decimal inside (.cons (by decide)) fun _ _ => .cons (by decide), decimal_endDot stops]
  | @startDot digit digits rest starts inside stops =>
    refine ⟨_, _, rfl, ?_⟩
    have taken : run Char.isDigit (digit :: digits ++ rest) = (digit :: digits, rest) :=
      run_eq (List.forall_mem_cons.mpr ⟨starts, inside⟩) stops
    show Munch.dot (digit :: digits ++ rest) = _
    rw [List.cons_append, Munch.dot, if_pos starts, ← List.cons_append, taken]
    rfl
  | macroLine named ends =>
    refine ⟨'#', "macro".toList ++ _, rfl, ?_⟩
    show Munch.hash _ = _
    rw [List.append_assoc]
    refine hash_eq (List.all_eq_true.mp (by decide)) named ?_
    show some (ofSplit _ _ (continuedLine _)) = _
    rw [ends]
    rfl
  | regionBegin named ends =>
    refine ⟨'#', "region".toList ++ _, rfl, ?_⟩
    show Munch.hash _ = _
    rw [List.append_assoc]
    refine hash_eq (List.all_eq_true.mp (by decide)) named ?_
    show some (ofSplit _ _ (lineEnd _)) = _
    rw [ends]
    rfl
  | regionEnd named ends =>
    refine ⟨'#', "endregion".toList ++ _, rfl, ?_⟩
    show Munch.hash _ = _
    rw [List.append_assoc]
    refine hash_eq (List.all_eq_true.mp (by decide)) named ?_
    show some (ofSplit _ _ (lineEnd _)) = _
    rw [ends]
    rfl
  | define named =>
    refine ⟨'#', "define".toList, rfl, ?_⟩
    exact hash_eq (List.all_eq_true.mp (by decide)) named rfl
  | hash unknown =>
    refine ⟨_, _, rfl, ?_⟩
    show Munch.hash _ = _
    rw [Munch.hash, List.nil_append, unknown]
  | string quotes ends =>
    refine ⟨_, _, rfl, ?_⟩
    obtain rfl | rfl := quotes
    · show ofSplit _ _ (quotedString '"' (escapes '"') _) = _
      rw [ends]
      rfl
    · show ofSplit _ _ (quotedString '\'' (escapes '\'') _) = _
      rw [ends]
      rfl
  | @rawString quote body rest quotes ends =>
    refine ⟨_, _, rfl, ?_⟩
    obtain rfl | rfl := quotes
    · show ofSplit _ _ (Munch.rawString '"' (body ++ rest)) = _
      rw [ends]
      rfl
    · show ofSplit _ _ (Munch.rawString '\'' (body ++ rest)) = _
      rw [ends]
      rfl
  | @lineComment body rest ends =>
    refine ⟨'/', '/' :: _, rfl, ?_⟩
    have second : lineEnd ('/' :: (body ++ rest)) = ('/' :: body, rest) := by
      have whole : lineEnd ('/' :: (body ++ rest)) =
          ('/' :: (lineEnd (body ++ rest)).1, (lineEnd (body ++ rest)).2) := rfl
      rw [whole, ends]
    show ofSplit _ _ (lineEnd ('/' :: (body ++ rest))) = _
    rw [second]
    rfl
  | @blockComment body rest ends =>
    refine ⟨'/', '*' :: _, rfl, ?_⟩
    show ofSplit _ _ (Munch.blockComment (body ++ rest)) = _
    rw [ends]
    rfl
  | @pair first second mark rest spelt =>
    refine ⟨_, _, rfl, ?_⟩
    have spelling := text_of_symbol? spelt
    cases mark <;> cases spelling <;> rfl
  | single spelt short stops =>
    refine ⟨_, _, rfl, ?_⟩
    rw [List.nil_append, read_eq_single short stops, single_eq spelt]
  | unidentified unknown short visible stops =>
    refine ⟨_, _, rfl, ?_⟩
    rw [List.nil_append, read_eq_single short stops, Munch.single, unknown]

end Cut

end GmlLayout
