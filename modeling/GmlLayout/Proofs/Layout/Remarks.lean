import GmlLayout.Proofs.Layout.Words

/-!
What formatting keeps of the comments and directives of a source. They come out one by one and in their
order, unless they stand behind an opening word or behind `default`, or a line is torn out of the page.
-/

namespace GmlLayout

def Leaf.silent : Leaf → Option Token
  | .unwritten held => some held
  | _ => none

/-- The `shown` remarks are those of the tokens `stored`, in their order, but for the `silent` ones. -/
def Silenced (shown : List String) (silent stored : List Token) : Prop :=
  shown.Sublist (remarksOf stored) ∧ (shown ++ remarksOf silent).Perm (remarksOf stored)

namespace Silenced

variable {shown later : List String} {silent silentLater stored storedLater : List Token}

theorem append (front : Silenced shown silent stored) (back : Silenced later silentLater storedLater) :
    Silenced (shown ++ later) (silent ++ silentLater) (stored ++ storedLater) := by
  unfold Silenced
  rw [remarksOf_append, remarksOf_append]
  refine ⟨front.1.append back.1, ?_⟩
  calc shown ++ later ++ (remarksOf silent ++ remarksOf silentLater)
    List.Perm _ (shown ++ remarksOf silent ++ (later ++ remarksOf silentLater)) := by
      simp only [List.append_assoc]
      apply List.Perm.append_left
      simp only [← List.append_assoc]
      exact List.perm_append_comm.append_right _
    List.Perm _ (remarksOf stored ++ remarksOf storedLater) := front.2.append back.2

theorem of_eq (same : shown = remarksOf stored) (none : remarksOf silent = []) :
    Silenced shown silent stored := by
  subst same
  exact ⟨.refl _, by rw [none, List.append_nil]⟩

end Silenced

section

variable {source : String} {token : Token} (scanned : token ∈ scan source)

include scanned

theorem Reads.remarks {leaf : List Leaf} (reads : Reads token leaf) :
    Silenced (keptInk isRemarkText leaf) (leaf.filterMap Leaf.silent) (leaf.filterMap Leaf.stored) := by
  obtain ⟨_, remark⟩ := textInk_classified scanned
  have zero : (textInk "0").filter isRemarkText = [] := by decide
  cases reads with
  | token | startDot | endDot =>
    apply Silenced.of_eq
    · simp [Leaf.ink, Leaf.stored, remark, zero]
    · rfl
  | trivia kind =>
    apply Silenced.of_eq
    · rw [keptInk_cons, keptInk_nil, List.append_nil, Leaf.ink]
      split
      · rename_i newline
        have broken : token.kind = .newline := by simpa [Token.isNewline] using newline
        show [] = remarksOf [token]
        rw [remarksOf_singleton, broken]
        rfl
      · exact remark
    · rfl
  | unwritten kind => exact ⟨List.nil_sublist _, .refl _⟩
  | @word word kind implied =>
    apply Silenced.of_eq
    · rw [keptInk_cons, keptInk_nil, List.append_nil, Leaf.ink,
        filter_textInk (classified_keyword word).1]
      rfl
    · rfl
  | skipped implied => exact Silenced.of_eq rfl rfl

theorem Opens.remarks {broken : Bool} {leaf : List Leaf} (opens : Opens broken token leaf) :
    Silenced (keptInk isRemarkText leaf) (leaf.filterMap Leaf.silent) (leaf.filterMap Leaf.stored) := by
  obtain ⟨_, remark⟩ := textInk_classified scanned
  cases opens with
  | function kind => exact Silenced.of_eq (by decide) rfl
  | lifetime kind =>
    apply Silenced.of_eq
    · simp [Leaf.ink, Leaf.stored, remark]
    · rfl
  | repeated kind allowed => exact Silenced.of_eq rfl rfl

end

theorem Passes.remarks {source : String} {broken : Bool} {start stop : List Token} {leaves : List Leaf}
    (passes : Passes broken start leaves stop) (inside : start ⊆ scan source) :
    Silenced (keptInk isRemarkText leaves) (leaves.filterMap Leaf.silent)
      (leaves.filterMap Leaf.stored) := by
  induction passes with
  | done => exact Silenced.of_eq rfl rfl
  | @read token leaf leaves rest stop one more ih =>
    obtain ⟨scanned, inside⟩ := List.cons_subset.mp inside
    rw [keptInk_append, List.filterMap_append, List.filterMap_append]
    exact (one.remarks scanned).append (ih inside)
  | @opened token leaf leaves rest stop one more ih =>
    obtain ⟨scanned, inside⟩ := List.cons_subset.mp inside
    have later : rest.dropWhile (·.kind.isTrivia) ⊆ rest := (List.dropWhile_suffix _).subset
    rw [keptInk_append, List.filterMap_append, List.filterMap_append]
    exact (one.remarks scanned).append (ih (List.Subset.trans later inside))
  | @supplied leaves rest stop more ih =>
    have unremarked : (Leaf.ink (.word .untilWord)).filter isRemarkText = [] := by decide
    rw [keptInk_cons, unremarked]
    exact ih inside

def silentTokens (program : List Stmt) : List Token :=
  (Stmt.listLeaves program).filterMap Leaf.silent

theorem silent_content (leaves : List Leaf) :
    (content leaves).filterMap Leaf.silent = leaves.filterMap Leaf.silent :=
  filterMap_content (fun leaf mark => by cases leaf <;> first | rfl | cases mark) leaves

theorem parse_remarks {source : String} {program : List Stmt} (parsed : parse source = .ok program)
    (none : leftovers source = []) :
    Silenced (keptInk isRemarkText (Stmt.listLeaves program)) (silentTokens program)
      (heldTokens program) := by
  obtain ⟨broken, passed, passes, _, same⟩ := parse_passes parsed
  obtain ⟨_, rfl⟩ := same none
  have remarks := passes.remarks (List.Subset.refl _)
  rwa [keptInk_content fun leaf mark => (filter_mark leaf mark).2, silent_content, stored_content]
    at remarks

theorem isHeld_of_isRemark (kind : Kind) (remark : kind.isRemark = true) : kind.isHeld = true := by
  cases kind <;> first | rfl | cases remark

/-- The comments, region marks and macros of a source come out each once and in their order exactly when
none of them stands behind an opening word, none behind `default`, and none on a line that is torn out of
the page. -/
theorem remarks_preserved_iff {source : String} {program : List Stmt} (parsed : parse source = .ok program)
    (none : leftovers source = []) (settings : Settings) :
    (layOut settings program).buffer.ink.filter isRemarkText = remarksOf (scan source) ↔
      remarksOf (lostTokens source program) = [] ∧ remarksOf (silentTokens program) = [] ∧
        (tornTexts settings program).filter isRemarkText = [] := by
  obtain ⟨wholeHeld, orderHeld⟩ := parse_account isHeld_of_isRemark parsed
  obtain ⟨orderTree, wholeTree⟩ := parse_remarks parsed none
  obtain ⟨orderPage, wholePage⟩ := layOut_laid (show isRemarkText ";" = false by decide) settings program
  have held : (remarksOf (heldTokens program) ++ remarksOf (lostTokens source program)).length =
      (remarksOf (scan source)).length := by
    unfold remarksOf
    rw [← List.map_append]
    exact (wholeHeld.map Token.lexeme).length_eq
  have tree := wholeTree.length_eq
  have shown := wholePage.length_eq
  have order : ((layOut settings program).kept isRemarkText).Sublist (remarksOf (scan source)) :=
    (orderPage.trans orderTree).trans ((orderHeld none).map Token.lexeme)
  rw [List.length_append] at held tree shown
  constructor
  · intro same
    have length : ((layOut settings program).kept isRemarkText).length = (remarksOf (scan source)).length :=
      congrArg List.length same
    refine ⟨?_, ?_, ?_⟩ <;> apply List.length_eq_zero_iff.mp <;> omega
  · rintro ⟨lost, silent, torn⟩
    apply order.eq_of_length
    rw [lost, List.length_nil] at held
    rw [silent, List.length_nil] at tree
    rw [torn, List.length_nil] at shown
    omega

/-- Comments, a region and a macro among ordinary code come out. -/
theorem remarks_preserved_region : ∃ program,
    parse "#region r\n#macro M 1\nf(a /* b */); // c\n#endregion" = .ok program ∧
      leftovers "#region r\n#macro M 1\nf(a /* b */); // c\n#endregion" = [] ∧
      (layOut {} program).buffer.ink.filter isRemarkText =
        remarksOf (scan "#region r\n#macro M 1\nf(a /* b */); // c\n#endregion") := by
  have kept : ∃ program,
      parse "#region r\n#macro M 1\nf(a /* b */); // c\n#endregion" = .ok program ∧
        leftovers "#region r\n#macro M 1\nf(a /* b */); // c\n#endregion" = [] ∧
        remarksOf (lostTokens "#region r\n#macro M 1\nf(a /* b */); // c\n#endregion" program) = [] ∧
        remarksOf (silentTokens program) = [] ∧ (tornTexts {} program).filter isRemarkText = [] :=
    exists_ok (by decide +kernel)
  obtain ⟨program, parsed, none, kept⟩ := kept
  exact ⟨program, parsed, none, (remarks_preserved_iff parsed none {}).mpr kept⟩

/-- A comment on the last line of an enumeration gives way to the closing brace. -/
theorem remarks_torn_out : ∃ program,
    parse "enum A \x7b a,\n/* c */ \x7d" = .ok program ∧
      leftovers "enum A \x7b a,\n/* c */ \x7d" = [] ∧
      (layOut {} program).buffer.ink.filter isRemarkText ≠
        remarksOf (scan "enum A \x7b a,\n/* c */ \x7d") :=
  exists_ok (by decide +kernel)

end GmlLayout
