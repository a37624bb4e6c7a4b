import GmlLayout.Proofs.Layout.Breaks
import GmlLayout.Proofs.Layout.Isolation
import GmlLayout.Proofs.Layout.TokensApart
import GmlLayout.Proofs.Token.Visible

/-!
Formatted texts that are read as they were written. If texts that stand side by side stay apart and every text
that takes up its line has the rest of it for itself, then each text is cut off in front of all that is spelled
behind it. So the tokens of the output are the texts that have been put down, with their numbers whole.
-/

namespace GmlLayout

open Munch

theorem Firm.ne_nil {content : String} (firm : Firm content) : content.toList ≠ [] := by
  intro none
  obtain remark | apart := firm
  · rw [isRemarkText, none] at remark
    revert remark
    decide
  · obtain ⟨kind, _, cut⟩ := apart "" rfl
    have whole := cut [] fun c starts => absurd starts (Option.not_mem_none c)
    obtain ⟨first, others, shape, _⟩ := whole.read
    rw [none] at shape
    cases shape

namespace Buffer

def spelling (fragments : List Fragment) : String :=
  String.join (fragments.map Fragment.toText)

theorem toList_spelling_cons (fragment : Fragment) (later : List Fragment) :
    (spelling (fragment :: later)).toList = fragment.toText.toList ++ (spelling later).toList := by
  rw [spelling, List.map_cons, String.join_cons, String.toList_append]
  rfl

/-- Each text is cut off in front of what is spelled behind it. -/
def Legible : List Fragment → Prop
  | [] => True
  | .text content :: later =>
    (∃ kind, kind ≠ .newline ∧ Cut kind content.toList (spelling later).toList) ∧ Legible later
  | _ :: later => Legible later

theorem legible_of_cut {fragments : List Fragment}
    (cuts : ∀ before content later, fragments = before ++ .text content :: later →
      ∃ kind, kind ≠ .newline ∧ Cut kind content.toList (spelling later).toList) : Legible fragments := by
  induction fragments with
  | nil => trivial
  | cons fragment rest ih =>
    have inner : Legible rest := ih fun before content later shape =>
      cuts (fragment :: before) content later (by rw [shape]; rfl)
    cases fragment with
    | text content => exact ⟨cuts [] content rest rfl, inner⟩
    | space | tab | newline => exact inner

theorem visibleTexts_of_legible {fragments : List Fragment} (legible : Legible fragments) :
    visibleTexts (spelling fragments) = fragments.flatMap Fragment.ink := by
  induction fragments with
  | nil => rfl
  | cons fragment later ih =>
    have shape := toList_spelling_cons fragment later
    rw [List.flatMap_cons]
    cases fragment with
    | text content =>
      obtain ⟨⟨kind, visible, cut⟩, inner⟩ := legible
      rw [visibleTexts_cut shape cut visible, ih inner]
      exact congrArg (· :: _) String.ofList_toList
    | space | tab | newline =>
      rw [visibleTexts_blank rfl shape, ih legible]
      rfl

theorem flatMap_ink (buffer : Buffer) : buffer.reverse.flatMap Fragment.ink = buffer.ink := by
  induction buffer with
  | nil => rfl
  | cons fragment buffer ih =>
    rw [List.reverse_cons, List.flatMap_append, ih, List.flatMap_singleton]
    rfl

/-! Joining the parts of numbers changes nothing about the remarks. -/

theorem toText_cons (fragment : Fragment) (buffer : Buffer) :
    toText (fragment :: buffer) = toText buffer ++ fragment.toText := by
  rw [toText, List.reverse_cons, List.map_append, String.join_append]
  exact congrArg _ (String.join_cons.trans (String.append_empty))

theorem toText_joined (buffer : Buffer) : buffer.joined.toText = buffer.toText := by
  fun_induction joined buffer with
  | case1 => rfl
  | case2 second first earlier isNumber ih =>
    rw [toText_cons, toText_cons, toText_cons, ih]
    exact String.append_assoc.symm
  | case3 second first earlier twoTokens ih =>
    rw [toText_cons, ih, ← toText_cons]
  | case4 fragment earlier other ih =>
    rw [toText_cons, ih, ← toText_cons]

theorem isRemarkText_of_isLineBound {text : String} (bound : isLineBound text = true) :
    isRemarkText text = true := by
  obtain ⟨opening, member, starts⟩ := List.any_eq_true.mp bound
  have known : ∀ opening ∈ lineBoundOpenings, opening ∈ remarkOpenings := by decide
  exact List.any_eq_true.mpr ⟨opening, known opening member, starts⟩

theorem mem_of_mem_joined {buffer : Buffer} {content : String} (remark : isRemarkText content = true)
    (member : .text content ∈ buffer.joined) : .text content ∈ buffer := by
  fun_induction joined buffer with
  | case1 => exact member
  | case2 second first earlier isNumber ih =>
    obtain same | member := List.mem_cons.mp member
    · cases same
      rw [noRemark_completed isNumber] at remark
      cases remark
    · exact List.mem_cons_of_mem _ (List.mem_cons_of_mem _ (ih member))
  | case3 second first earlier twoTokens ih =>
    obtain same | member := List.mem_cons.mp member
    · exact List.mem_cons.mpr (.inl same)
    · exact List.mem_cons_of_mem _ (ih member)
  | case4 fragment earlier other ih =>
    obtain same | member := List.mem_cons.mp member
    · exact List.mem_cons.mpr (.inl same)
    · exact List.mem_cons_of_mem _ (ih member)

theorem isolated_cons {fragment : Fragment} {before behind later : List Fragment}
    (broken : behind = [] ∨ behind.head? = some .newline → later = [] ∨ later.head? = some .newline)
    (inner : isolated later = true) (whole : isolated (before ++ fragment :: behind) = true) :
    isolated (fragment :: later) = true := by
  cases fragment with
  | text content =>
    rw [isolated, inner, Bool.and_true]
    cases bound : isLineBound content with
    | false => rfl
    | true => simpa using broken (behind_of_isolated whole bound)
  | space | tab | newline => exact inner

theorem isolated_joined {buffer : Buffer} {behind later : List Fragment}
    (broken : behind = [] ∨ behind.head? = some .newline → later = [] ∨ later.head? = some .newline)
    (inner : isolated later = true) (whole : isolated (buffer.reverse ++ behind) = true) :
    isolated (buffer.joined.reverse ++ later) = true := by
  have alike : ∀ (fragment : Fragment) {behind later : List Fragment},
      fragment :: behind = [] ∨ (fragment :: behind).head? = some .newline →
        fragment :: later = [] ∨ (fragment :: later).head? = some .newline :=
    fun fragment _ _ => .imp nofun id
  fun_induction joined buffer generalizing behind later with
  | case1 => exact inner
  | case2 second first earlier isNumber ih =>
    rw [List.reverse_cons, List.reverse_cons, List.append_assoc, List.append_assoc] at whole
    rw [List.reverse_cons, List.append_assoc]
    refine ih (fun ends => ?_) ?_ whole
    · obtain none | last := ends
      · cases none
      · cases last
    · have noRemark := noRemark_completed isNumber
      rw [List.singleton_append, isolated, inner, Bool.and_true]
      cases bound : isLineBound (first ++ second) with
      | false => rfl
      | true =>
        rw [isRemarkText_of_isLineBound bound] at noRemark
        cases noRemark
  | case3 second first earlier twoTokens ih =>
    rw [List.reverse_cons, List.append_assoc] at whole
    rw [List.reverse_cons, List.append_assoc]
    exact ih (alike _) (isolated_cons broken inner whole) whole
  | case4 fragment earlier other ih =>
    rw [List.reverse_cons, List.append_assoc] at whole
    rw [List.reverse_cons, List.append_assoc]
    exact ih (alike _) (isolated_cons broken inner whole) whole

/-- A text that is no remark is cut off in front of all that is spelled behind it. -/
theorem Severed.exists_cut [Account] {buffer : Buffer} (severed : Severed buffer) (counts : Account.remarks = true)
    {before later : List Fragment} {content : String} (code : isRemarkText content = false)
    (shape : buffer.reverse = before ++ .text content :: later) :
    ∃ kind, kind ≠ .newline ∧ Cut kind content.toList (spelling later).toList := by
  have member : ∀ fragment ∈ .text content :: later, fragment ∈ buffer := by
    intro fragment member
    rw [← List.mem_reverse, shape]
    exact List.mem_append_right _ member
  have firm := severed.firm (member _ List.mem_cons_self)
  have apart : ∀ next, isDetached next = true → Apart content next :=
    firm.resolve_left (by rw [code]; exact Bool.false_ne_true)
  cases later with
  | nil =>
    obtain ⟨kind, visible, cut⟩ := apart "" rfl
    exact ⟨kind, visible, cut [] nofun⟩
  | cons fragment later =>
    have follows : Apart content fragment.toText ∧ fragment.toText.toList ≠ [] := by
      cases fragment with
      | text next =>
        have beside := severed.beside ⟨before, later, shape⟩
        obtain remark | ⟨spared, _⟩ | apart := beside
        · rw [code] at remark
          cases remark
        · rw [counts] at spared
          cases spared
        · exact ⟨apart, (severed.firm (member (.text next) (by simp))).ne_nil⟩
      | space => exact ⟨apart " " rfl, List.cons_ne_nil _ _⟩
      | tab => exact ⟨apart "\t" rfl, List.cons_ne_nil _ _⟩
      | newline => exact ⟨apart "\n" rfl, List.cons_ne_nil _ _⟩
    obtain ⟨⟨kind, visible, cut⟩, shown⟩ := follows
    refine ⟨kind, visible, cut _ fun c starts => ?_⟩
    rw [toList_spelling_cons, List.head?_append_of_ne_nil _ shown] at starts
    exact starts

end Buffer

/-- Every remark of a layout is one of the source. -/
theorem exists_token_of_remark (settings : Settings) {source : String} {program : List Stmt}
    (parsed : parse source = .ok program) {content : String} (remark : isRemarkText content = true)
    (member : .text content ∈ (layOut settings program).buffer) :
    ∃ token ∈ scan source, token.kind.isRemark = true ∧ token.lexeme = content := by
  let strange : String → Bool := fun text => isRemarkText text && !((scan source).map Token.lexeme).contains text
  have known : ∀ text, isRemarkText text = false → strange text = false := fun text noRemark => by
    simp [strange, noRemark]
  have none : (layOut settings program).kept strange = [] := by
    refine layOut_unkept parsed (fun token scanned => filter_textInk ?_) (known _ (by decide)) (fun word => ?_)
      (fun mark => known _ (isRemarkText_symbol mark)) (known _ (by decide)) settings
    · simpa [strange] using fun _ => ⟨token, scanned, rfl⟩
    · refine known _ ?_
      cases word <;> decide
  have inked : content ∈ (layOut settings program).buffer.ink := by
    rw [← Buffer.flatMap_ink]
    exact List.mem_flatMap.mpr ⟨_, List.mem_reverse.mpr member, List.mem_singleton_self _⟩
  have stored : strange content = false := by
    rw [Bool.eq_false_iff]
    intro isStrange
    have kept : content ∈ (layOut settings program).kept strange := List.mem_filter.mpr ⟨inked, isStrange⟩
    rw [none] at kept
    cases kept
  obtain ⟨token, scanned, rfl⟩ : ∃ token ∈ scan source, token.lexeme = content := by
    simpa [strange, remark] using stored
  have visible : token.kind ≠ .newline := by
    intro newline
    rw [lexeme_eq_fixedText scanned (by rw [newline]; rfl), newline] at remark
    revert remark
    decide
  exact ⟨token, scanned, (classified_of_mem_scan scanned visible).1 ▸ remark, rfl⟩

theorem layOut_legible (settings : Settings) {source : String} {program : List Stmt}
    (parsed : parse source = .ok program) (ended : ∀ token ∈ scan source, token.isEnded = true)
    (separate : separatesRemarks program = true) (sheltered : sheltersRemarks program = true) :
    Buffer.Legible (layOut settings program).buffer.joined.reverse := by
  let : Account := ⟨true⟩
  have closed : ∀ token ∈ scan source, token.isClosed = true :=
    fun token scanned => Token.isClosed_of_isEnded (ended token scanned)
  have severed := (layOut_parted settings parsed closed separate).joined
  have alone : isolated ((layOut settings program).buffer.joined.reverse ++ []) = true := by
    refine Buffer.isolated_joined id rfl ?_
    rw [List.append_nil]
    exact isolated_layOut settings parsed sheltered
  rw [List.append_nil] at alone
  refine Buffer.legible_of_cut fun before content later shape => ?_
  cases remark : isRemarkText content with
  | false => exact severed.exists_cut rfl remark shape
  | true =>
    have member : .text content ∈ (layOut settings program).buffer.joined := by
      rw [← List.mem_reverse, shape]
      exact List.mem_append_right _ List.mem_cons_self
    obtain ⟨token, scanned, kind, rfl⟩ :=
      exists_token_of_remark settings parsed remark (Buffer.mem_of_mem_joined remark member)
    refine ⟨token.kind, ?_, cut_of_mem_scan scanned kind (ended token scanned) fun line => ?_⟩
    · intro newline
      rw [newline] at kind
      cases kind
    · have takesLine : token.kind.takesLine = true := by
        revert kind line
        cases token.kind <;> simp [Kind.isRemark, Kind.takesLine]
      rw [shape] at alone
      obtain rfl | broken := behind_of_isolated alone (isLineBound_of_takesLine scanned takesLine)
      · exact .nil
      · obtain ⟨rest, rfl⟩ := List.head?_eq_some_iff.mp broken
        rw [Buffer.toList_spelling_cons]
        exact .cons rfl

/-- If the tokens of the tree stay apart, its remarks are sheltered and the tokens of the source have come to
their ends, then the formatted text has exactly the tokens that were written, line breaks left out. A number
that is completed by a zero is one token. -/
theorem visibleTexts_output (settings : Settings) {source : String} {program : List Stmt}
    (parsed : parse source = .ok program) (ended : ∀ token ∈ scan source, token.isEnded = true)
    (separate : separatesRemarks program = true) (sheltered : sheltersRemarks program = true) :
    visibleTexts (layOut settings program).output = (layOut settings program).buffer.joined.ink := by
  have legible := layOut_legible settings parsed ended separate sheltered
  rw [← Buffer.flatMap_ink, ← Buffer.visibleTexts_of_legible legible]
  exact congrArg visibleTexts (Buffer.toText_joined _).symm

end GmlLayout
