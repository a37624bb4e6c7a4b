import GmlLayout.Proofs.Token.Apart

/-!
What a text is read as, its line breaks apart. Blanks leave nothing behind, and a text that is cut off is the
first one to be read. The texts that take up their line are cut off again in front of any line break, and a
comment that is closed in front of anything.
-/

namespace GmlLayout

open Munch

/-- The texts of the tokens that are read, but for the line breaks. -/
def visibleTexts (source : String) : List String :=
  ((scan source).filter fun token => token.kind ≠ .newline).map Token.lexeme

theorem visibleTexts_eq (source : String) : visibleTexts source =
    (((scan source).map Token.unplaced).filter fun token => token.kind ≠ .newline).map Token.lexeme := by
  rw [List.filter_map, List.map_map]
  rfl

theorem visibleTexts_gap {source rest : String} {gap : List Char} (blank : ∀ c ∈ gap, isGap c = true)
    (shape : source.toList = gap ++ rest.toList) : visibleTexts source = visibleTexts rest := by
  rw [visibleTexts_eq, visibleTexts_eq, scan_of_gap blank shape]

theorem visibleTexts_newline {source rest : String} (shape : source.toList = '\n' :: rest.toList) :
    visibleTexts source = visibleTexts rest := by
  have split : rest.toList = (run isIndent rest.toList).1 ++ (run isIndent rest.toList).2 :=
    (run_append isIndent rest.toList).symm
  obtain ⟨behind, left⟩ : ∃ behind : String, behind.toList = (run isIndent rest.toList).2 :=
    ⟨String.ofList (run isIndent rest.toList).2, String.toList_ofList⟩
  have broken : source.toList = ('\n' :: (run isIndent rest.toList).1) ++ behind.toList := by
    rw [shape, left, List.cons_append, ← split]
  have indents : ∀ c ∈ (run isIndent rest.toList).1, isGap c = true := by
    intro c member
    rw [isGap, run_inside rest.toList c member]
    rfl
  have cut : Cut .newline ('\n' :: (run isIndent rest.toList).1) behind.toList := by
    rw [left]
    exact newline_cut rest.toList
  have same : visibleTexts rest = visibleTexts behind := visibleTexts_gap indents (left ▸ split)
  rw [same, visibleTexts_eq, visibleTexts_eq, scan_cons_of_cut broken cut]
  rfl

theorem visibleTexts_blank {source rest : String} {c : Char} (blank : startsBlank c = true)
    (shape : source.toList = c :: rest.toList) : visibleTexts source = visibleTexts rest := by
  rw [startsBlank, Bool.or_eq_true, beq_iff_eq] at blank
  obtain gap | rfl := blank
  · have alone : ∀ c' ∈ [c], isGap c' = true := List.forall_mem_singleton.mpr gap
    exact visibleTexts_gap alone shape
  · exact visibleTexts_newline shape

theorem visibleTexts_cut {source rest : String} {kind : Kind} {text : List Char}
    (shape : source.toList = text ++ rest.toList) (cut : Cut kind text rest.toList) (noBreak : kind ≠ .newline) :
    visibleTexts source = String.ofList text :: visibleTexts rest := by
  obtain ⟨first, others, isText, reread⟩ := cut.read
  have visible : isGap first = false := by
    have visible := cut.visible
    rw [isText] at visible
    exact visible
  have spells := read_spells (others ++ rest.toList) visible
  rw [reread] at spells
  have lexeme : (⟨kind, (⟨kind, text, []⟩ : Munch).payload, 0, 0⟩ : Token).lexeme = String.ofList text :=
    Spells.lexeme spells noBreak rfl
  rw [visibleTexts_eq, visibleTexts_eq, scan_cons_of_cut shape cut, List.filter_cons_of_pos, List.map_cons, lexeme]
  simpa using noBreak

/-! Remarks are cut off again. -/

theorem continuedLine_again_break {body rest behind : List Char}
    (ends : continuedLine (body ++ rest) = (body, rest)) (last : body.getLast? ≠ some '\\')
    (stops : Stops (· != '\n') behind) : continuedLine (body ++ behind) = (body, behind) := by
  fun_induction continuedLine body with
  | case1 =>
    cases behind with
    | nil => rfl
    | cons c behind =>
      obtain rfl : c = '\n' := by simpa using stops.head
      rfl
  | case2 body ih =>
    have within : continuedLine (body ++ rest) = (body, rest) := by
      simpa [continuedLine, Prod.ext_iff] using ends
    have last : body.getLast? ≠ some '\\' := by
      intro same
      cases body with
      | nil => cases same
      | cons c body => exact last (by simpa [List.getLast?_cons_cons] using same)
    rw [List.cons_append, List.cons_append, continuedLine, ih within last]
  | case3 body other =>
    simp [continuedLine] at ends
  | case4 c body other noBreak ih =>
    have unescaped : ∀ left later, c = '\\' → body ++ left = '\n' :: later → False := by
      intro left later backslash broken
      cases body with
      | nil => exact last (by rw [backslash]; rfl)
      | cons d body =>
        obtain ⟨rfl, -⟩ := List.cons.inj broken
        exact other body backslash rfl
    have unended : body.getLast? ≠ some '\\' := by
      intro same
      cases body with
      | nil => cases same
      | cons d body => exact last (by rw [List.getLast?_cons_cons, same])
    rw [List.cons_append, continuedLine.eq_3 _ _ (unescaped rest), if_neg noBreak, Prod.mk.injEq,
      List.cons.injEq] at ends
    rw [List.cons_append, continuedLine.eq_3 _ _ (unescaped behind), if_neg noBreak,
      ih (Prod.ext ends.1.2 ends.2) unended]

theorem Stops.before_break {body rest behind : List Char} (named : Stops isWordChar (body ++ rest))
    (stops : Stops (· != '\n') behind) : Stops isWordChar (body ++ behind) := by
  cases body with
  | nil =>
    refine stops.weaken fun c broken => ?_
    obtain rfl : c = '\n' := by simpa using broken
    rfl
  | cons c body => exact .cons named.head

/-- A text that takes up its line is cut off in front of any line break, a closed comment in front of
everything. -/
theorem Cut.remark_again {kind : Kind} {text rest behind : List Char} (cut : Cut kind text rest)
    (remark : kind.isRemark = true) (ends : kind = .macroLine → text.getLast? ≠ some '\\')
    (closed : kind = .blockComment → runsOn kind text = false)
    (broken : kind ≠ .blockComment → Stops (· != '\n') behind) : Cut kind text behind := by
  cases cut with
  | lineComment split =>
    have stops := broken nofun
    exact .lineComment (run_eq (run_eq_iff.mp split).1 stops)
  | regionBegin named split =>
    have stops := broken nofun
    exact .regionBegin (named.before_break stops) (run_eq (run_eq_iff.mp split).1 stops)
  | regionEnd named split =>
    have stops := broken nofun
    exact .regionEnd (named.before_break stops) (run_eq (run_eq_iff.mp split).1 stops)
  | @macroLine body _ named split =>
    have stops := broken nofun
    refine .macroLine (named.before_break stops) (continuedLine_again_break split (fun last => ?_) stops)
    refine ends rfl ?_
    rw [List.getLast?_append, last]
    rfl
  | @blockComment body rest closes =>
    have again := (blockComment_again (body ++ rest)).1
    simp only [closes] at again
    have isClosed : (!closesComment body) = false := closed rfl
    exact .blockComment (again _ (by simpa using isClosed))
  | word =>
    unfold wordKind at remark
    split at remark <;> cases remark
  | _ => cases remark

/-- A string or a comment that is closed, a macro whose last line ends, or any other token. -/
def Token.isEnded (token : Token) : Bool :=
  match token.kind with
  | .string | .blockComment => !runsOn token.kind token.lexeme.toList
  | .macroLine => token.lexeme.toList.getLast? ≠ some '\\'
  | _ => true

theorem Token.isClosed_of_isEnded {token : Token} (ended : token.isEnded = true) : token.isClosed = true := by
  unfold isEnded at ended
  unfold isClosed
  generalize token.kind = kind at ended ⊢
  cases kind with
  | string => exact ended
  | _ => rfl

theorem cut_of_mem_scan {source : String} {token : Token} (member : token ∈ scan source)
    (remark : token.kind.isRemark = true) (ended : token.isEnded = true) {behind : List Char}
    (broken : token.kind ≠ .blockComment → Stops (· != '\n') behind) :
    Cut token.kind token.lexeme.toList behind := by
  have visible : token.kind ≠ .newline := by
    intro same
    rw [same] at remark
    cases remark
  obtain ⟨rest, cut⟩ := exists_cut_of_mem_scan member visible
  refine cut.remark_again remark (fun isMacro => ?_) (fun isComment => ?_) broken
  · rw [Token.isEnded, isMacro] at ended
    simpa using ended
  · rw [Token.isEnded, isComment] at ended
    simpa [isComment] using ended

end GmlLayout
