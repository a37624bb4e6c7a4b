import GmlLayout.Proofs.Layout.Words
import GmlLayout.Proofs.Token.Lossless

/-!
Formatting brings in no carriage return. So a text whose line breaks are line feeds keeps them when it is
stored and read again, whether it has been formatted or not.
-/

namespace GmlLayout

theorem mem_source_of_mem_lexeme {source : String} {token : Token} (scanned : token ∈ scan source)
    {c : Char} (member : c ∈ token.lexeme.toList) : c ∈ source.toList := by
  obtain ⟨lead, gaps, _, counted, whole⟩ :=
    @Cursor.tokens_lossless (.start source.toList) source.toList.length (Nat.le_refl _)
  have scanned : token ∈ (Cursor.start source.toList).tokens source.toList.length := scanned
  obtain ⟨index, bound, here⟩ := List.mem_iff_getElem.mp scanned
  have inside : index < (List.zipWith (fun token gap => token.lexeme.toList ++ gap)
      ((Cursor.start source.toList).tokens source.toList.length) gaps).length := by
    rw [List.length_zipWith, counted, Nat.min_self]
    exact bound
  have piece := List.getElem_mem inside
  rw [List.getElem_zipWith, here] at piece
  have whole : source.toList = lead ++ _ := whole
  rw [whole]
  exact List.mem_append_right _ (List.mem_flatten.mpr ⟨_, piece, List.mem_append_left _ member⟩)

section Unkept

variable {keep : String → Bool} {token : Token} {leaf : List Leaf}

theorem Reads.unkept (reads : Reads token leaf) (unkept : (textInk token.lexeme).filter keep = [])
    (zero : keep "0" = false) (words : ∀ word : Keyword, keep word.text = false) :
    keptInk keep leaf = [] := by
  cases reads with
  | token => simp [keptInk, Leaf.ink, unkept]
  | trivia =>
    rw [keptInk_cons, keptInk_nil, List.append_nil, Leaf.ink]
    split
    · rfl
    · exact unkept
  | unwritten => rfl
  | startDot | endDot => simp [keptInk, Leaf.ink, unkept, filter_textInk zero]
  | word => simp [keptInk, Leaf.ink, filter_textInk (words _)]
  | skipped => rfl

theorem Opens.unkept {broken : Bool} (opens : Opens broken token leaf)
    (unkept : (textInk token.lexeme).filter keep = []) (words : ∀ word : Keyword, keep word.text = false) :
    keptInk keep leaf = [] := by
  cases opens with
  | function => simp [keptInk, Leaf.ink, filter_textInk (words _)]
  | lifetime => simp [keptInk, Leaf.ink, unkept]
  | repeated => rfl

theorem Passes.unkept {broken : Bool} {start stop : List Token} {leaves : List Leaf}
    (passes : Passes broken start leaves stop)
    (unkept : ∀ token ∈ start, (textInk token.lexeme).filter keep = [])
    (zero : keep "0" = false) (words : ∀ word : Keyword, keep word.text = false) :
    keptInk keep leaves = [] := by
  induction passes with
  | done => rfl
  | read one more ih =>
    obtain ⟨first, rest⟩ := List.forall_mem_cons.mp unkept
    rw [keptInk_append, one.unkept first zero words, ih rest, List.append_nil]
  | @opened token leaf leaves rest stop one more ih =>
    obtain ⟨first, others⟩ := List.forall_mem_cons.mp unkept
    have later : rest.dropWhile (·.kind.isTrivia) ⊆ rest := (List.dropWhile_suffix _).subset
    rw [keptInk_append, one.unkept first words, ih fun token member => others token (later member),
      List.append_nil]
  | supplied more ih =>
    rw [keptInk_cons, ih unkept, List.append_nil]
    exact filter_textInk (words _)

theorem layOut_unkept {source : String} {program : List Stmt} (parsed : parse source = .ok program)
    (tokens : ∀ token ∈ scan source, (textInk token.lexeme).filter keep = []) (zero : keep "0" = false)
    (words : ∀ word : Keyword, keep word.text = false) (marks : ∀ mark : Symbol, keep mark.text = false)
    (define : keep "#define" = false) (settings : Settings) : (layOut settings program).kept keep = [] := by
  obtain ⟨broken, passed, passes, perm, _⟩ := parse_passes parsed
  have passedUnkept := passes.unkept tokens zero words
  have marksUnkept : ∀ leaf : Leaf, leaf.isMark = true → leaf.ink.filter keep = [] := by
    intro leaf mark
    cases leaf with
    | mark symbol => exact filter_textInk (marks symbol)
    | directive => exact filter_textInk define
    | _ => cases mark
  have leaves : keptInk keep (Stmt.listLeaves program) = [] := by
    rw [← keptInk_content marksUnkept]
    have same := (perm.flatMap_right Leaf.ink).filter keep
    exact List.Perm.eq_nil (passedUnkept ▸ same.symm)
  have order := (layOut_laid (marks .semicolon) settings program).1
  rw [leaves] at order
  exact List.sublist_nil.mp order

end Unkept

def holdsReturn (text : String) : Bool :=
  text.toList.contains '\r'

theorem layOut_unreturned {source : String} {program : List Stmt} (parsed : parse source = .ok program)
    (none : '\r' ∉ source.toList) (settings : Settings) : (layOut settings program).kept holdsReturn = [] := by
  have tokens : ∀ token ∈ scan source, holdsReturn token.lexeme = false := by
    intro token scanned
    unfold holdsReturn
    simpa using fun member => none (mem_source_of_mem_lexeme scanned member)
  refine layOut_unkept parsed (fun token scanned => filter_textInk (tokens token scanned)) ?_ ?_ ?_ ?_ settings
  · decide
  · intro word
    cases word <;> decide
  · intro mark
    cases mark <;> decide
  · decide

theorem mem_toText {buffer : Buffer} {c : Char} (member : c ∈ buffer.toText.toList) :
    c = ' ' ∨ c = '\t' ∨ c = '\n' ∨ ∃ text ∈ buffer.ink, c ∈ text.toList := by
  induction buffer with
  | nil => simp [Buffer.toText] at member
  | cons fragment buffer ih =>
    have split : (Buffer.toText (fragment :: buffer)).toList =
        (Buffer.toText buffer).toList ++ fragment.toText.toList := by
      simp [Buffer.toText]
    rw [split] at member
    obtain earlier | last := List.mem_append.mp member
    · obtain space | tab | lineBreak | ⟨text, inked, inside⟩ := ih earlier
      · exact .inl space
      · exact .inr (.inl tab)
      · exact .inr (.inr (.inl lineBreak))
      · exact .inr (.inr (.inr ⟨text, List.mem_append_left _ inked, inside⟩))
    · cases fragment with
      | space => exact .inl (by simpa [Fragment.toText] using last)
      | tab => exact .inr (.inl (by simpa [Fragment.toText] using last))
      | newline => exact .inr (.inr (.inl (by simpa [Fragment.toText] using last)))
      | text content =>
        exact .inr (.inr (.inr ⟨content, List.mem_append_right _ (List.mem_singleton_self _), last⟩))

theorem format_unreturned {source output : String} {settings : Settings} (none : '\r' ∉ source.toList)
    (formatted : format settings source = .ok output) : '\r' ∉ output.toList := by
  unfold format at formatted
  cases parsed : parse source with
  | error cause =>
    rw [parsed] at formatted
    cases formatted
  | ok program =>
    rw [parsed] at formatted
    obtain rfl := Except.ok.inj formatted
    intro member
    obtain blank | blank | blank | ⟨text, inked, inside⟩ := mem_toText member
    · cases blank
    · cases blank
    · cases blank
    · have kept : text ∈ (layOut settings program).kept holdsReturn :=
        List.mem_filter.mpr ⟨inked, by simpa [holdsReturn] using inside⟩
      rw [layOut_unreturned parsed none] at kept
      cases kept

end GmlLayout
