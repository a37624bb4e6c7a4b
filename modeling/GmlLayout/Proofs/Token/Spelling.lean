import GmlLayout.Token.Scan

/-!
How the tokens of each kind are spelt. A spelling alone tells comments and directives from words, and
both from punctuation, so that what is found in a formatted text can be compared with the tokens of its
source.
-/

namespace GmlLayout

def startsBlank (c : Char) : Bool :=
  Munch.isGap c || c == '\n'

inductive Spells : Kind → List Char → Prop where
  | symbol (mark : Symbol) : Spells (.symbol mark) mark.text.toList
  | keyword (word : Keyword) : Spells (.keyword word) word.text.toList
  | define : Spells .define "#define".toList
  | newline (blanks : List Char) : Spells .newline ('\n' :: blanks)
  | identifier {first : Char} {others : List Char} (starts : Munch.isWordStart first = true)
      (unreserved : Keyword.ofText? (String.ofList (first :: others)) = none) :
      Spells .identifier (first :: others)
  | string {quote : Char} (body : List Char) (quotes : quote = '"' ∨ quote = '\'') :
      Spells .string (quote :: body)
  | rawString {quote : Char} (body : List Char) (quotes : quote = '"' ∨ quote = '\'') :
      Spells .string ('@' :: quote :: body)
  | number {first : Char} (others : List Char) (starts : first.isDigit = true ∨ first = '$') :
      Spells .number (first :: others)
  | numberStartDot {digit : Char} (others : List Char) (isDigit : digit.isDigit = true) :
      Spells .numberStartDot ('.' :: digit :: others)
  | numberEndDot {first : Char} (others : List Char) (starts : first.isDigit = true) :
      Spells .numberEndDot (first :: others)
  | lineComment (body : List Char) : Spells .lineComment ("//".toList ++ body)
  | blockComment (body : List Char) : Spells .blockComment ("/*".toList ++ body)
  | macroLine (body : List Char) : Spells .macroLine ("#macro".toList ++ body)
  | regionBegin (body : List Char) : Spells .regionBegin ("#region".toList ++ body)
  | regionEnd (body : List Char) : Spells .regionEnd ("#endregion".toList ++ body)
  | unidentified {only : Char} (visible : startsBlank only = false)
      (unknown : ∀ mark : Symbol, mark.text.toList ≠ [only]) :
      Spells .unidentified [only]

namespace Munch

theorem word_spells {first : Char} (source : List Char) (starts : isWordStart first = true) :
    Spells (word first source).kind (word first source).text := by
  unfold word ofSplit wordKind
  split
  · rename_i keyword found
    have spelling := Keyword.text_of_ofText? found
    have text : keyword.text.toList = first :: (run isWordChar source).1 := by simp [spelling]
    simpa [text] using Spells.keyword keyword
  · rename_i unreserved
    exact .identifier starts unreserved

theorem decimal_spells {first : Char} (others source : List Char) (digit : first.isDigit = true) :
    Spells (decimal (first :: others) source).kind (decimal (first :: others) source).text := by
  unfold decimal ofSplit
  split
  · split
    · exact .number _ (.inl digit)
    · exact .numberEndDot _ digit
  · exact .numberEndDot _ digit
  · exact .number _ (.inl digit)

theorem number_spells {first : Char} (source : List Char) (digit : first.isDigit = true) :
    Spells (number first source).kind (number first source).text := by
  unfold number
  split
  · exact .number _ (.inl rfl)
  · exact decimal_spells _ _ digit

theorem directive?_spells {name rest : List Char} {munch : Munch}
    (known : directive? name rest = some munch) : Spells munch.kind munch.text := by
  unfold directive? ofSplit at known
  split at known
  · rename_i name
    cases known
    exact name ▸ .macroLine _
  · split at known
    · rename_i name
      cases known
      exact name ▸ .regionBegin _
    · split at known
      · rename_i name
        cases known
        exact name ▸ .regionEnd _
      · split at known
        · rename_i name
          cases known
          exact name ▸ .define
        · cases known

theorem hash_spells (source : List Char) : Spells (hash source).kind (hash source).text := by
  unfold hash
  split
  · rename_i known
    exact directive?_spells known
  · exact .symbol .hash

theorem text_of_symbol? {spelling : List Char} {mark : Symbol} (found : symbol? spelling = some mark) :
    mark.text.toList = spelling := by
  simpa using List.find?_some found

theorem symbol?_eq_none {spelling : List Char} (missing : symbol? spelling = none) (mark : Symbol) :
    mark.text.toList ≠ spelling := by
  simpa using List.find?_eq_none.mp missing mark (Symbol.mem_all mark)

theorem single_spells {first : Char} (source : List Char) (visible : startsBlank first = false) :
    Spells (single first source).kind (single first source).text := by
  unfold single
  split
  · rename_i found
    exact text_of_symbol? found ▸ .symbol _
  · rename_i missing
    exact .unidentified visible (symbol?_eq_none missing)

theorem punctuation_spells {first : Char} (source : List Char) (visible : startsBlank first = false) :
    Spells (punctuation first source).kind (punctuation first source).text := by
  unfold punctuation
  split
  · exact single_spells [] visible
  · split
    · rename_i found
      exact text_of_symbol? found ▸ .symbol _
    · exact single_spells _ visible

theorem slash_spells (source : List Char) : Spells (slash source).kind (slash source).text := by
  unfold slash ofSplit lineEnd run
  split
  · rename_i rest
    rw [List.takeWhile_cons_of_pos (by decide)]
    exact .lineComment _
  · exact .blockComment _
  · exact punctuation_spells source (by decide)

theorem atSign_spells (source : List Char) : Spells (atSign source).kind (atSign source).text := by
  unfold atSign ofSplit
  split
  · exact .rawString _ (.inl rfl)
  · exact .rawString _ (.inr rfl)
  · refine .unidentified (by decide) fun mark => ?_
    cases mark <;> decide

theorem dot_spells (source : List Char) : Spells (dot source).kind (dot source).text := by
  unfold dot ofSplit run
  split
  · split
    · rename_i digit
      rw [List.takeWhile_cons_of_pos digit]
      exact .numberStartDot _ digit
    · exact punctuation_spells _ (by decide)
  · exact punctuation_spells [] (by decide)

theorem read_spells {first : Char} (source : List Char) (noGap : isGap first = false) :
    Spells (read first source).kind (read first source).text := by
  unfold read
  split
  · exact word_spells source ‹_›
  · split
    · exact number_spells source ‹_›
    · split
      · exact .newline _
      · exact hash_spells source
      · exact atSign_spells source
      · exact .string _ (.inl rfl)
      · exact .string _ (.inr rfl)
      · exact dot_spells source
      · exact .number _ (.inr rfl)
      · exact slash_spells source
      · rename_i noBreak _ _ _ _ _ _ _
        exact punctuation_spells source (by simp [startsBlank, noGap]; exact noBreak)

end Munch

def Kind.isRemark : Kind → Bool
  | .lineComment | .blockComment | .regionBegin | .regionEnd | .macroLine => true
  | _ => false

/-- Reserved words, names, literals, and characters that belong to nothing. -/
def Kind.isWord : Kind → Bool
  | .keyword word => word ≠ .thenWord
  | .identifier | .string | .number | .numberStartDot | .numberEndDot | .unidentified => true
  | _ => false

/-- What the comments and directives that are kept word by word start with. -/
def remarkOpenings : List String :=
  ["//", "/*", "#macro", "#region", "#endregion"]

def fixedMarks : List String :=
  "#define" :: Keyword.thenWord.text :: Symbol.all.map Symbol.text

def isRemarkText (text : String) : Bool :=
  remarkOpenings.any fun opening => opening.toList.isPrefixOf text.toList

def isWordText (text : String) : Bool :=
  !isRemarkText text && text ∉ fixedMarks

theorem isWordText_of_not_mem {text : String} (noRemark : isRemarkText text = false)
    (noMark : text ∉ fixedMarks) : isRemarkText text = false ∧ isWordText text = true := by
  unfold isWordText
  rw [noRemark]
  simpa only [Bool.not_false, Bool.true_and, decide_eq_true_eq, true_and] using noMark

def startsWord (c : Char) : Bool :=
  (remarkOpenings ++ fixedMarks).all fun text => text.toList.head? ≠ some c

theorem isRemarkText_eq_false {first : Char} {others : List Char}
    (slash : first ≠ '/') (hash : first ≠ '#') :
    isRemarkText (String.ofList (first :: others)) = false := by
  have noSlash : ('/' == first) = false := by simp [slash.symm]
  have noHash : ('#' == first) = false := by simp [hash.symm]
  simp [isRemarkText, remarkOpenings, List.isPrefixOf, noSlash, noHash]

theorem isWordText_of_startsWord {first : Char} (others : List Char) (starts : startsWord first = true) :
    isRemarkText (String.ofList (first :: others)) = false ∧
      isWordText (String.ofList (first :: others)) = true := by
  have other : ∀ text ∈ remarkOpenings ++ fixedMarks, text.toList.head? ≠ some first := by
    simpa only [startsWord, List.all_eq_true, decide_eq_true_eq] using starts
  have slash : first ≠ '/' := by
    rintro rfl
    exact other "//" (by decide) rfl
  have hash : first ≠ '#' := by
    rintro rfl
    exact other "#macro" (by decide) rfl
  apply isWordText_of_not_mem (isRemarkText_eq_false slash hash)
  intro member
  exact other _ (List.mem_append_right _ member) (by simp)

theorem startsWord_of_isDigit {c : Char} (digit : c.isDigit = true) : startsWord c = true := by
  have none : (remarkOpenings ++ fixedMarks).all
      (fun text => text.toList.head?.all fun first => !first.isDigit) = true := by
    decide
  simp only [startsWord, List.all_eq_true, decide_eq_true_eq] at none ⊢
  intro text member first
  have undigit := none text member
  rw [first, Option.all_some, digit] at undigit
  cases undigit

theorem isWordText_of_isWordStart {text : String} (starts : text.toList.head?.any Munch.isWordStart = true)
    (other : text ≠ Keyword.thenWord.text) : isRemarkText text = false ∧ isWordText text = true := by
  have unlike : ∀ mark : String, mark.toList.head?.any Munch.isWordStart = false → text ≠ mark := by
    rintro mark unstarted rfl
    rw [starts] at unstarted
    cases unstarted
  have noRemark : isRemarkText text = false := by
    cases shape : text.toList with
    | nil => simp [shape] at starts
    | cons first others =>
      rw [← String.ofList_toList (s := text), shape]
      rw [shape, List.head?_cons, Option.any_some] at starts
      apply isRemarkText_eq_false
      · rintro rfl
        exact absurd starts (by decide)
      · rintro rfl
        exact absurd starts (by decide)
  apply isWordText_of_not_mem noRemark
  intro member
  simp only [fixedMarks, List.mem_cons] at member
  obtain define | thenWord | symbol := member
  · exact unlike _ (by decide) define
  · exact other thenWord
  · obtain ⟨mark, _, same⟩ := List.mem_map.mp symbol
    exact unlike mark.text (by cases mark <;> decide) same.symm

theorem isWordText_identifier {first : Char} {others : List Char}
    (starts : Munch.isWordStart first = true)
    (unreserved : Keyword.ofText? (String.ofList (first :: others)) = none) :
    isRemarkText (String.ofList (first :: others)) = false ∧
      isWordText (String.ofList (first :: others)) = true := by
  apply isWordText_of_isWordStart
  · rw [String.toList_ofList]
    exact starts
  · intro same
    rw [same] at unreserved
    exact absurd unreserved (by decide)

theorem classified_keyword (word : Keyword) :
    isRemarkText word.text = Kind.isRemark (.keyword word) ∧
      isWordText word.text = Kind.isWord (.keyword word) := by
  by_cases thenWord : word = .thenWord
  · subst thenWord
    decide
  · have starts : word.text.toList.head?.any Munch.isWordStart = true := by cases word <;> decide
    have other : word.text ≠ Keyword.thenWord.text := by
      revert thenWord
      cases word <;> decide
    obtain ⟨noRemark, isWord⟩ := isWordText_of_isWordStart starts other
    exact ⟨noRemark, by rw [isWord]; simp [Kind.isWord, thenWord]⟩

theorem isWordText_startDot {digit : Char} (others : List Char) (isDigit : digit.isDigit = true) :
    isRemarkText (String.ofList ('.' :: digit :: others)) = false ∧
      isWordText (String.ofList ('.' :: digit :: others)) = true := by
  apply isWordText_of_not_mem (isRemarkText_eq_false (by decide) (by decide))
  intro member
  have none : fixedMarks.all (fun text => text.toList.head? ≠ some '.' ||
      text.toList.tail.head?.all fun second => !second.isDigit) = true := by
    decide
  have second := List.all_eq_true.mp none _ member
  simp [isDigit] at second

theorem isWordText_unidentified {only : Char} (unknown : ∀ mark : Symbol, mark.text.toList ≠ [only]) :
    isRemarkText (String.ofList [only]) = false ∧ isWordText (String.ofList [only]) = true := by
  apply isWordText_of_not_mem
  · simp [isRemarkText, remarkOpenings, List.isPrefixOf]
  · intro member
    simp only [fixedMarks, List.mem_cons] at member
    obtain define | thenWord | symbol := member
    · exact absurd (congrArg (·.toList.length) define) (by simp)
    · exact absurd (congrArg (·.toList.length) thenWord) (by simp [Keyword.text])
    · obtain ⟨mark, _, text⟩ := List.mem_map.mp symbol
      exact unknown mark (by rw [text, String.toList_ofList])

theorem isRemarkText_append {opening : String} (opens : opening ∈ remarkOpenings) (body : List Char) :
    isRemarkText (String.ofList (opening.toList ++ body)) = true ∧
      isWordText (String.ofList (opening.toList ++ body)) = false := by
  have remark : isRemarkText (String.ofList (opening.toList ++ body)) = true := by
    unfold isRemarkText
    rw [List.any_eq_true]
    exact ⟨opening, opens, by rw [String.toList_ofList, List.isPrefixOf_iff_prefix]; exact List.prefix_append _ _⟩
  refine ⟨remark, ?_⟩
  unfold isWordText
  rw [remark]
  rfl

theorem isWordText_of_mem {text : String} (mark : text ∈ fixedMarks) : isWordText text = false := by
  unfold isWordText
  rw [decide_eq_false (not_not_intro mark), Bool.and_false]

theorem text_mem_fixedMarks (mark : Symbol) : mark.text ∈ fixedMarks := by
  apply List.mem_cons_of_mem
  apply List.mem_cons_of_mem
  exact List.mem_map_of_mem (Symbol.mem_all mark)

theorem isRemarkText_symbol (mark : Symbol) : isRemarkText mark.text = false := by
  cases mark <;> decide

theorem Spells.classified {kind : Kind} {text : List Char} (spells : Spells kind text)
    (noBreak : kind ≠ .newline) :
    isRemarkText (String.ofList text) = kind.isRemark ∧
      isWordText (String.ofList text) = kind.isWord := by
  cases spells with
  | symbol mark =>
    rw [String.ofList_toList]
    exact ⟨isRemarkText_symbol mark, isWordText_of_mem (text_mem_fixedMarks mark)⟩
  | keyword word =>
    rw [String.ofList_toList]
    exact classified_keyword word
  | define => decide
  | newline => exact absurd rfl noBreak
  | identifier starts unreserved => exact isWordText_identifier starts unreserved
  | string body quotes =>
    obtain rfl | rfl := quotes
    · exact isWordText_of_startsWord _ (by decide)
    · exact isWordText_of_startsWord _ (by decide)
  | rawString body quotes => exact isWordText_of_startsWord _ (by decide)
  | number others starts =>
    obtain digit | rfl := starts
    · exact isWordText_of_startsWord _ (startsWord_of_isDigit digit)
    · exact isWordText_of_startsWord _ (by decide)
  | numberStartDot others isDigit => exact isWordText_startDot others isDigit
  | numberEndDot others digit => exact isWordText_of_startsWord _ (startsWord_of_isDigit digit)
  | lineComment body => exact isRemarkText_append (by decide) body
  | blockComment body => exact isRemarkText_append (by decide) body
  | macroLine body => exact isRemarkText_append (by decide) body
  | regionBegin body => exact isRemarkText_append (by decide) body
  | regionEnd body => exact isRemarkText_append (by decide) body
  | unidentified _ unknown => exact isWordText_unidentified unknown

theorem Spells.fixed {kind : Kind} {text : List Char} (spells : Spells kind text)
    (textless : kind.carriesText = false) (noBreak : kind ≠ .newline) :
    Spells kind kind.fixedText.toList := by
  cases spells with
  | symbol mark => exact .symbol mark
  | keyword word => exact .keyword word
  | define => exact .define
  | newline => exact absurd rfl noBreak
  | _ => cases textless

theorem exists_read_of_mem_tokens {token : Token} {bound : Nat} {cursor : Cursor}
    (member : token ∈ cursor.tokens bound) :
    ∃ first source, Munch.isGap first = false ∧ token.kind = (Munch.read first source).kind ∧
      token.payload = (Munch.read first source).payload := by
  induction bound generalizing cursor with
  | zero => cases member
  | succ bound ih =>
    unfold Cursor.tokens at member
    split at member
    · cases member
    · rename_i found after step
      obtain rfl | later := List.mem_cons.mp member
      · unfold Cursor.next at step
        simp only at step
        split at step
        · cases step
        · rename_i first source rest
          cases step
          refine ⟨first, source, ?_, rfl, rfl⟩
          have stops := List.head?_dropWhile_not Munch.isGap cursor.rest
          rw [show cursor.rest.dropWhile Munch.isGap = first :: source from rest] at stops
          exact stops
      · exact ih later

theorem lexeme_eq_fixedText {source : String} {token : Token} (member : token ∈ scan source)
    (textless : token.kind.carriesText = false) : token.lexeme = token.kind.fixedText := by
  obtain ⟨first, rest, _, kind, payload⟩ := exists_read_of_mem_tokens member
  unfold Token.lexeme
  rw [payload]
  unfold Munch.payload
  rw [← kind, textless]
  by_cases newline : token.kind = .newline
  · simp [newline]
  · simp [newline]

theorem spells_of_mem_scan {source : String} {token : Token} (member : token ∈ scan source)
    (noBreak : token.kind ≠ .newline) : Spells token.kind token.lexeme.toList := by
  obtain ⟨first, rest, noGap, kind, payload⟩ := exists_read_of_mem_tokens member
  have spells := Munch.read_spells rest noGap
  rw [← kind] at spells
  unfold Token.lexeme
  rw [payload]
  unfold Munch.payload
  rw [← kind]
  by_cases carries : token.kind.carriesText = true
  · simpa [carries] using spells
  · simp only [carries, noBreak, if_false]
    exact spells.fixed (by simpa using carries) noBreak

theorem classified_of_mem_scan {source : String} {token : Token} (member : token ∈ scan source)
    (noBreak : token.kind ≠ .newline) :
    isRemarkText token.lexeme = token.kind.isRemark ∧ isWordText token.lexeme = token.kind.isWord := by
  have classes := (spells_of_mem_scan member noBreak).classified noBreak
  rwa [String.ofList_toList] at classes

theorem startsBlank_of_isWordChar {c : Char} (inWord : Munch.isWordChar c = true) :
    startsBlank c = false := by
  cases blank : startsBlank c with
  | false => rfl
  | true =>
    simp only [startsBlank, Munch.isGap, Munch.isIndent, Bool.or_eq_true, beq_iff_eq] at blank
    obtain ((rfl | rfl) | rfl) | rfl := blank
    all_goals exact absurd inWord (by decide)

theorem Spells.visible {kind : Kind} {text : List Char} (spells : Spells kind text)
    (noBreak : kind ≠ .newline) : text.head?.any startsBlank = false := by
  cases spells with
  | symbol mark => cases mark <;> rfl
  | keyword word => cases word <;> rfl
  | newline => exact absurd rfl noBreak
  | identifier starts unreserved =>
    exact startsBlank_of_isWordChar (by rw [Munch.isWordChar, starts, Bool.true_or])
  | string body quotes => obtain rfl | rfl := quotes <;> rfl
  | number others starts =>
    obtain digit | rfl := starts
    · exact startsBlank_of_isWordChar (by rw [Munch.isWordChar, digit, Bool.or_true])
    · rfl
  | numberEndDot others digit =>
    exact startsBlank_of_isWordChar (by rw [Munch.isWordChar, digit, Bool.or_true])
  | unidentified visible unknown => exact visible
  | _ => rfl

theorem lexeme_ne_blank {source : String} {token : Token} (member : token ∈ scan source)
    (noBreak : token.kind ≠ .newline) :
    token.lexeme ≠ " " ∧ token.lexeme ≠ "\t" ∧ token.lexeme ≠ "\n" := by
  have visible := (spells_of_mem_scan member noBreak).visible noBreak
  refine ⟨?_, ?_, ?_⟩
  all_goals
    intro blank
    rw [blank] at visible
    revert visible
    decide

end GmlLayout
