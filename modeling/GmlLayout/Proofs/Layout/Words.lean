import GmlLayout.Proofs.Grammar.Completeness
import GmlLayout.Proofs.Layout.Torn

/-!
What formatting keeps of the words of a source: they come out in their order unless a line is torn out
of the page.
-/

namespace GmlLayout

/-- The fragments that a word is written as: a number that starts or ends with its point is completed. -/
def Token.spelled (token : Token) : List String :=
  match token.kind with
  | .numberStartDot => ["0", token.lexeme]
  | .numberEndDot => [token.lexeme, "0"]
  | _ => [token.lexeme]

def wordsOf (tokens : List Token) : List String :=
  (tokens.filter (·.kind.isWord)).flatMap Token.spelled

def remarksOf (tokens : List Token) : List String :=
  (tokens.filter (·.kind.isRemark)).map Token.lexeme

theorem wordsOf_append (first second : List Token) :
    wordsOf (first ++ second) = wordsOf first ++ wordsOf second := by
  unfold wordsOf
  rw [List.filter_append, List.flatMap_append]

theorem remarksOf_append (first second : List Token) :
    remarksOf (first ++ second) = remarksOf first ++ remarksOf second := by
  unfold remarksOf
  rw [List.filter_append, List.map_append]

theorem wordsOf_singleton (token : Token) :
    wordsOf [token] = if token.kind.isWord then token.spelled else [] := by
  unfold wordsOf
  rw [List.filter_cons]
  split <;> simp

theorem remarksOf_singleton (token : Token) :
    remarksOf [token] = if token.kind.isRemark then [token.lexeme] else [] := by
  unfold remarksOf
  rw [List.filter_cons]
  split <;> rfl

theorem spelled_of_undotted {token : Token} (undotted : token.kind.isDotted = false) :
    token.spelled = [token.lexeme] := by
  unfold Token.spelled
  split
  · rename_i kind
    rw [kind] at undotted
    cases undotted
  · rename_i kind
    rw [kind] at undotted
    cases undotted
  · rfl

theorem isWord_of_isTrivia {kind : Kind} (trivia : kind.isTrivia = true) : kind.isWord = false := by
  cases kind with
  | keyword word => cases word <;> first | rfl | cases trivia
  | _ => first | rfl | cases trivia

theorem isWord_of_isImplied {kind : Kind} (implied : kind.isImplied = true) : kind.isWord = false := by
  cases kind <;> first | rfl | cases implied

theorem wordsOf_dropWhile (tokens : List Token) :
    wordsOf (tokens.dropWhile (·.kind.isTrivia)) = wordsOf tokens := by
  induction tokens with
  | nil => rfl
  | cons token rest ih =>
    rw [List.dropWhile_cons]
    split
    · rename_i trivia
      rw [← List.singleton_append, wordsOf_append, wordsOf_singleton, isWord_of_isTrivia trivia, ih]
      rfl
    · rfl

section

variable {source : String} {token : Token} (scanned : token ∈ scan source)

include scanned

theorem textInk_classified :
    (textInk token.lexeme).filter isWordText = (if token.kind.isWord then [token.lexeme] else []) ∧
      (textInk token.lexeme).filter isRemarkText = remarksOf [token] := by
  rw [remarksOf_singleton]
  by_cases newline : token.kind = .newline
  · rw [lexeme_eq_fixedText scanned (by rw [newline]; rfl), newline]
    exact ⟨rfl, rfl⟩
  · obtain ⟨space, tab, lineBreak⟩ := lexeme_ne_blank scanned newline
    obtain ⟨remark, word⟩ := classified_of_mem_scan scanned newline
    have shown : textInk token.lexeme = [token.lexeme] := by
      simp [textInk, Fragment.ofText, Fragment.ink, space, tab, lineBreak]
    rw [shown, List.filter_cons, List.filter_cons, remark, word]
    exact ⟨rfl, rfl⟩

theorem textInk_word {word : Keyword} (kind : token.kind = .keyword word) :
    textInk word.text = textInk token.lexeme := by
  rw [lexeme_eq_fixedText scanned (by rw [kind]; rfl), kind]
  rfl

theorem keptInk_trivia (trivia : token.kind.isTrivia = true) : keptInk isWordText [.trivia token] = [] := by
  obtain ⟨word, _⟩ := textInk_classified scanned
  rw [isWord_of_isTrivia trivia] at word
  rw [keptInk_cons, keptInk_nil, List.append_nil, Leaf.ink]
  split
  · rfl
  · exact word

theorem Reads.words {leaf : List Leaf} (reads : Reads token leaf) :
    keptInk isWordText leaf = wordsOf [token] := by
  obtain ⟨word, _⟩ := textInk_classified scanned
  have zero : (textInk "0").filter isWordText = ["0"] := by decide
  rw [wordsOf_singleton]
  cases reads with
  | token undotted =>
    rw [keptInk_cons, keptInk_nil, List.append_nil, Leaf.ink, word, spelled_of_undotted undotted]
  | startDot kind => simp [Leaf.ink, zero, word, Token.spelled, kind, Kind.isWord]
  | endDot kind => simp [Leaf.ink, zero, word, Token.spelled, kind, Kind.isWord]
  | trivia kind =>
    rw [keptInk_trivia scanned kind, isWord_of_isTrivia kind]
    rfl
  | unwritten kind =>
    rw [isWord_of_isTrivia kind]
    rfl
  | word kind implied =>
    rw [keptInk_cons, keptInk_nil, List.append_nil, Leaf.ink, textInk_word scanned kind, word,
      spelled_of_undotted (by rw [kind]; rfl)]
  | skipped implied =>
    rw [isWord_of_isImplied implied]
    rfl

theorem Opens.words {leaf : List Leaf} (opens : Opens false token leaf) :
    keptInk isWordText leaf = wordsOf [token] := by
  obtain ⟨word, _⟩ := textInk_classified scanned
  rw [wordsOf_singleton]
  cases opens with
  | function kind =>
    rw [keptInk_cons, keptInk_nil, List.append_nil, Leaf.ink, textInk_word scanned kind, word,
      spelled_of_undotted (by rw [kind]; rfl)]
  | lifetime kind =>
    have undotted : token.kind.isDotted = false := by
      obtain kind | kind := kind <;> rw [kind] <;> rfl
    rw [keptInk_cons, keptInk_nil, List.append_nil, Leaf.ink, word, spelled_of_undotted undotted]
  | repeated kind allowed => cases allowed

end

/-- The `words` stand in `ink` in their order, and all else there are supplied words `until`. -/
def Completed (words ink : List String) : Prop :=
  words.Sublist ink ∧ ∃ supplied, (words ++ List.replicate supplied "until").Perm ink

namespace Completed

variable {words ink : List String}

theorem append_left (completed : Completed words ink) (front : List String) :
    Completed (front ++ words) (front ++ ink) := by
  obtain ⟨order, supplied, whole⟩ := completed
  refine ⟨order.append_left front, supplied, ?_⟩
  rw [List.append_assoc]
  exact whole.append_left front

theorem supply (completed : Completed words ink) : Completed words ("until" :: ink) := by
  obtain ⟨order, supplied, whole⟩ := completed
  refine ⟨order.cons _, supplied + 1, ?_⟩
  rw [List.replicate_succ]
  exact List.perm_middle.trans (whole.cons _)

end Completed

/-- The words of a passage are those of its tokens, in their order, and every `until` that was supplied. -/
theorem Passes.words {source : String} {start stop : List Token} {leaves : List Leaf}
    (passes : Passes false start leaves stop) (finished : stop = []) (inside : start ⊆ scan source) :
    Completed (wordsOf start) (keptInk isWordText leaves) := by
  induction passes with
  | done =>
    subst finished
    exact ⟨.refl _, 0, .refl _⟩
  | @read token leaf leaves rest stop one more ih =>
    obtain ⟨scanned, inside⟩ := List.cons_subset.mp inside
    rw [keptInk_append, one.words scanned, ← List.singleton_append, wordsOf_append]
    exact (ih finished inside).append_left _
  | @opened token leaf leaves rest stop one more ih =>
    obtain ⟨scanned, inside⟩ := List.cons_subset.mp inside
    have later : rest.dropWhile (·.kind.isTrivia) ⊆ rest := (List.dropWhile_suffix _).subset
    rw [keptInk_append, one.words scanned, ← List.singleton_append, wordsOf_append,
      ← wordsOf_dropWhile rest]
    exact (ih finished (List.Subset.trans later inside)).append_left _
  | supplied more ih =>
    have written : (Leaf.ink (.word .untilWord)).filter isWordText = ["until"] := by decide
    rw [keptInk_cons, written]
    exact (ih finished inside).supply

theorem keptInk_content {keep : String → Bool}
    (unkept : ∀ leaf : Leaf, leaf.isMark = true → leaf.ink.filter keep = []) (leaves : List Leaf) :
    keptInk keep (content leaves) = keptInk keep leaves := by
  induction leaves with
  | nil => rfl
  | cons leaf leaves ih =>
    rw [content_cons, keptInk_cons]
    split
    · rename_i mark
      rw [unkept leaf mark, ih, List.nil_append]
    · rw [keptInk_cons, ih]

theorem filter_mark (leaf : Leaf) (mark : leaf.isMark = true) :
    leaf.ink.filter isWordText = [] ∧ leaf.ink.filter isRemarkText = [] := by
  cases leaf with
  | mark symbol =>
    exact ⟨filter_textInk (isWordText_of_mem (text_mem_fixedMarks symbol)),
      filter_textInk (isRemarkText_symbol symbol)⟩
  | directive => decide
  | _ => cases mark

/-- The words of a program are those of its source, in their order, and every `until` that was missing
there. -/
theorem parse_words {source : String} {program : List Stmt} (parsed : parse source = .ok program)
    (none : leftovers source = []) :
    Completed (wordsOf (scan source)) (keptInk isWordText (Stmt.listLeaves program)) := by
  obtain ⟨broken, passed, passes, _, same⟩ := parse_passes parsed
  obtain ⟨rfl, rfl⟩ := same none
  have words := passes.words rfl (List.Subset.refl _)
  rwa [keptInk_content fun leaf mark => (filter_mark leaf mark).1] at words

theorem Completed.filter_words {words ink : List String} (completed : Completed words ink)
    (inked : ∀ text ∈ ink, isWordText text = true) : words.filter isWordText = words :=
  List.filter_eq_self.mpr fun text member => inked text (completed.1.subset member)

/-- A text that is not supplied occurs in the completed ink as often as among the words. -/
theorem Completed.count_eq {words ink : List String} (completed : Completed words ink) {text : String}
    (other : text ≠ "until") : ink.count text = words.count text := by
  obtain ⟨_, supplied, whole⟩ := completed
  rw [← whole.count_eq, List.count_append, List.count_replicate]
  simp [other.symm]

/-- The words of a source come out in their order if no word is torn out of the page. Conversely, if they
do, only words `until` are torn out, and not even these unless the source leaves some of them out. -/
theorem words_preserved {source : String} {program : List Stmt} (parsed : parse source = .ok program)
    (none : leftovers source = []) (settings : Settings) :
    ((tornTexts settings program).filter isWordText = [] →
      (wordsOf (scan source)).Sublist (layOut settings program).buffer.ink) ∧
    ((wordsOf (scan source)).Sublist (layOut settings program).buffer.ink →
      (∀ word ∈ (tornTexts settings program).filter isWordText, word = "until") ∧
      ((wordsOf (scan source)).length = (keptInk isWordText (Stmt.listLeaves program)).length →
        (tornTexts settings program).filter isWordText = [])) := by
  have completed := parse_words parsed none
  obtain ⟨order, whole⟩ := layOut_laid (show isWordText ";" = false by decide) settings program
  refine ⟨fun untorn => ?_, fun preserved => ?_⟩
  · rw [untorn, List.append_nil] at whole
    have same := order.eq_of_length whole.length_eq
    have among : ((layOut settings program).kept isWordText).Sublist (layOut settings program).buffer.ink :=
      List.filter_sublist
    rw [same] at among
    exact completed.1.trans among
  · have inked : ∀ text ∈ keptInk isWordText (Stmt.listLeaves program), isWordText text = true :=
      fun text member => (List.mem_filter.mp member).2
    have shown : (wordsOf (scan source)).Sublist ((layOut settings program).kept isWordText) := by
      rw [← completed.filter_words inked]
      exact preserved.filter isWordText
    refine ⟨fun word torn => ?_, fun nothingSupplied => ?_⟩
    · refine Decidable.byContradiction fun other => ?_
      have source_le := shown.count_le word
      have count := whole.count_eq word
      have present := List.count_pos_iff.mpr torn
      rw [List.count_append, completed.count_eq other] at count
      omega
    · have length := whole.length_eq
      have length_le := shown.length_le
      rw [List.length_append] at length
      exact List.length_eq_zero_iff.mp (by omega)

/-- The words of a `switch` whose branches end on lines of their own come out. -/
theorem words_preserved_switch : ∃ program,
    parse "switch (x) \x7b\ncase 0:\nrun(.5);\nbreak;\n\x7d" = .ok program ∧
      leftovers "switch (x) \x7b\ncase 0:\nrun(.5);\nbreak;\n\x7d" = [] ∧
      (wordsOf (scan "switch (x) \x7b\ncase 0:\nrun(.5);\nbreak;\n\x7d")).Sublist
        (layOut {} program).buffer.ink := by
  have untorn : ∃ program,
      parse "switch (x) \x7b\ncase 0:\nrun(.5);\nbreak;\n\x7d" = .ok program ∧
        leftovers "switch (x) \x7b\ncase 0:\nrun(.5);\nbreak;\n\x7d" = [] ∧
        (tornTexts {} program).filter isWordText = [] :=
    exists_ok (by decide +kernel)
  obtain ⟨program, parsed, none, untorn⟩ := untorn
  exact ⟨program, parsed, none, (words_preserved parsed none {}).1 untorn⟩

/-- A branch that ends on the line of its last statement loses that line. -/
theorem words_torn_out : ∃ program,
    parse "switch (x) \x7b case 0: run(); break; \x7d" = .ok program ∧
      leftovers "switch (x) \x7b case 0: run(); break; \x7d" = [] ∧
      ¬(wordsOf (scan "switch (x) \x7b case 0: run(); break; \x7d")).Sublist
        (layOut {} program).buffer.ink :=
  exists_ok (by decide +kernel)

end GmlLayout
