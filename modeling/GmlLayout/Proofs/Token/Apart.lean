import GmlLayout.Proofs.Token.Weave

/-!
Texts that stay apart. One text stays apart from another if it is cut off as a token in front of every rest
that begins like the other: then the scanner, when they are put side by side, finds the tokens of the first
and then those of the second. A token that has come to an end stays apart from every text whose first
character it does not absorb. Brackets and separators are absorbed by nothing, and all but one of them
absorb nothing.
-/

namespace GmlLayout

open Munch

def Apart (first second : String) : Prop :=
  ∃ kind, kind ≠ .newline ∧
    ∀ rest, (∀ c ∈ rest.head?, second.toList.head? = some c) → Cut kind first.toList rest

namespace Cursor

theorem tokens_of_gap_append {first second : Cursor} {gap : List Char} {bound limit : Nat}
    (blank : ∀ c ∈ gap, isGap c = true) (same : second.rest = gap ++ first.rest)
    (enough : first.rest.length ≤ bound) (within : second.rest.length ≤ limit) :
    (second.tokens limit).map Token.unplaced = (first.tokens bound).map Token.unplaced := by
  induction bound generalizing first second gap limit with
  | zero =>
    have none : first.rest = [] := List.eq_nil_of_length_eq_zero (Nat.le_zero.mp enough)
    rw [none, List.append_nil] at same
    rw [tokens_of_gap (by rw [same]; exact blank), tokens_of_gap (by rw [none]; exact noGap)]
  | succ bound ih =>
    have split := List.takeWhile_append_dropWhile (p := isGap) (l := first.rest)
    have wider : ∀ c ∈ gap ++ first.rest.takeWhile isGap, isGap c = true := by
      intro c member
      obtain member | member := List.mem_append.mp member
      · exact blank c member
      · exact run_inside first.rest c member
    rw [← split, ← List.append_assoc] at same
    cases shape : first.rest.dropWhile isGap with
    | nil =>
      rw [shape, List.append_nil] at split same
      rw [tokens_of_gap (by rw [same]; exact wider), tokens_of_gap (by rw [← split]; exact run_inside first.rest)]
    | cons c source =>
      have visible : isGap c = false := by
        have stops := List.head?_dropWhile_not isGap first.rest
        rw [shape] at stops
        exact stops
      rw [shape] at split same
      obtain ⟨others, text, whole⟩ := exists_text_eq source visible
      obtain ⟨token, next, placed⟩ := next_eq split.symm (run_inside first.rest) visible
      obtain ⟨token', next', placed'⟩ := next_eq same wider visible
      have shorter : (read c source).rest.length ≤ source.length := by
        have whole := congrArg List.length whole
        rw [List.length_append] at whole
        omega
      have length : source.length < first.rest.length := by
        rw [← split, List.length_append, List.length_cons]
        omega
      have longer : source.length < second.rest.length := by
        rw [same, List.length_append, List.length_cons]
        omega
      cases limit with
      | zero => omega
      | succ limit =>
        rw [tokens, tokens, next, next', List.map_cons, List.map_cons, placed, placed']
        congr 1
        exact @ih _ _ [] _ noGap rfl (Nat.le_trans shorter (by omega)) (Nat.le_trans shorter (by omega))

end Cursor

theorem scan_cons_of_cut {source rest : String} {kind : Kind} {text : List Char}
    (shape : source.toList = text ++ rest.toList) (cut : Cut kind text rest.toList) :
    (scan source).map Token.unplaced =
      ⟨kind, (⟨kind, text, []⟩ : Munch).payload, 0, 0⟩ :: (scan rest).map Token.unplaced := by
  obtain ⟨first, others, isText, reread⟩ := cut.read
  have visible : isGap first = false := by
    have visible := cut.visible
    rw [isText] at visible
    exact visible
  rw [isText, List.cons_append] at shape
  have split : (Cursor.start source.toList).rest = [] ++ first :: (others ++ rest.toList) := shape
  obtain ⟨token, next, placed⟩ := Cursor.next_eq split noGap visible
  rw [reread] at next placed
  have length : source.toList.length = others.length + rest.toList.length + 1 := by
    rw [shape, List.length_cons, List.length_append]
  unfold scan
  rw [length, Cursor.tokens, next, List.map_cons, placed]
  congr 1
  exact Cursor.tokens_of_gap_append noGap rfl (Nat.le_refl _) (Nat.le_add_left _ _)

theorem scan_of_gap {source rest : String} {gap : List Char} (blank : ∀ c ∈ gap, isGap c = true)
    (shape : source.toList = gap ++ rest.toList) :
    (scan source).map Token.unplaced = (scan rest).map Token.unplaced :=
  Cursor.tokens_of_gap_append blank shape (Nat.le_refl _) (Nat.le_refl _)

namespace Apart

variable {first second : String}

theorem of_head? {other : String} (apart : Apart first second)
    (same : other.toList.head? = second.toList.head?) : Apart first other := by
  obtain ⟨kind, visible, cut⟩ := apart
  exact ⟨kind, visible, fun rest starts => cut rest (same ▸ starts)⟩

theorem scan_append (apart : Apart first second) :
    (scan (first ++ second)).map Token.unplaced = (scan first ++ scan second).map Token.unplaced := by
  obtain ⟨kind, _, cut⟩ := apart
  have whole := scan_cons_of_cut String.toList_append (cut second.toList fun c member => member)
  have single := @scan_cons_of_cut first "" _ _ (List.append_nil _).symm (cut [] nofun)
  rw [List.map_append, whole, single]
  rfl

end Apart

/-! What a token absorbs. -/

/-- The characters that change how a token is read if they come right behind it. -/
def absorbs : Kind → List Char → Char → Bool
  | .identifier, _, c | .keyword _, _, c | .define, _, c => isWordChar c
  | .number, _, c => isWordChar c || c == '.'
  | .numberStartDot, _, c | .numberEndDot, _, c => c.isDigit
  | .symbol _, [first], c | .unidentified, [first], c => joins first c || (first == '#' && isWordChar c)
  | _, _, _ => false

/-- A token that has come to an end is cut off in front of everything that it does not absorb. -/
theorem Cut.before {kind : Kind} {text rest : List Char} (cut : Cut kind text rest)
    (ends : runsOn kind text = false) (noBreak : kind ≠ .newline) {other : List Char}
    (stops : Stops (absorbs kind text) other) : Cut kind text other := by
  have joined : ∀ {first : Char},
      Stops (fun c => joins first c || (first == '#' && isWordChar c)) other → Stops (joins first) other :=
    fun stops => stops.weaken fun c outside => (Bool.or_eq_false_iff.mp outside).1
  cases cut with
  | newline inside stops => exact absurd rfl noBreak
  | @word first others rest starts inside _ =>
    refine .word starts inside (stops.weaken fun c outside => ?_)
    unfold wordKind at outside
    split at outside
    · exact outside
    · exact outside
  | hexadecimal inside stops' => exact (Cut.hexadecimal inside stops').number_again stops
  | color inside stops' => exact (Cut.color inside stops').number_again stops
  | whole starts inside stops' plain => exact (Cut.whole starts inside stops' plain).number_again stops
  | fraction starts inside goesOn within stops' =>
    exact (Cut.fraction starts inside goesOn within stops').number_again stops
  | endDot starts inside _ => exact .endDot starts inside stops
  | startDot starts inside _ => exact .startDot starts inside stops
  | macroLine | regionBegin | regionEnd | lineComment => cases ends
  | define _ => exact .define stops
  | hash unknown =>
    have noWord : Stops isWordChar other := stops.weaken fun c outside => by
      have outside : (joins '#' c || isWordChar c) = false := outside
      exact (Bool.or_eq_false_iff.mp outside).2
    have none : run isWordChar ([] ++ other) = ([], other) := run_eq (fun _ member => nomatch member) noWord
    refine .hash ?_
    rw [List.nil_append] at none
    rw [none]
    rfl
  | @string quote body rest quotes closes =>
    refine Cut.string_again (.string quotes closes) ends ?_ _
    obtain rfl | rfl := quotes <;> exact fun same => nomatch same
  | @rawString quote body rest quotes closes =>
    have again := (rawString_again quote (body ++ rest)).1
    simp only [closes] at again
    have closed : (!body.contains quote) = false := ends
    exact .rawString quotes (again _ (by simpa using closed))
  | @blockComment body rest closes =>
    have again := (blockComment_again (body ++ rest)).1
    simp only [closes] at again
    have closed : (!closesComment body) = false := ends
    exact .blockComment (again _ (by simpa using closed))
  | pair spelt => exact .pair spelt
  | single spelt short _ => exact .single spelt short (joined stops)
  | unidentified unknown short visible _ => exact .unidentified unknown short visible (joined stops)

namespace Token

def stopsBefore (token : Token) (next : String) : Bool :=
  !next.toList.head?.any (absorbs token.kind token.lexeme.toList)

/-- A remark, or a token that stays apart from every text that it does not absorb. -/
def Sound (token : Token) : Prop :=
  isRemarkText token.lexeme = true ∨ ∀ next, token.stopsBefore next = true → Apart token.lexeme next

variable {token : Token}

theorem Sound.of_cut {rest : List Char} (cut : Cut token.kind token.lexeme.toList rest)
    (ends : runsOn token.kind token.lexeme.toList = false) (noBreak : token.kind ≠ .newline) :
    token.Sound := by
  refine .inr fun next before => ⟨token.kind, noBreak, fun rest starts => ?_⟩
  refine cut.before ends noBreak fun c member => ?_
  rw [stopsBefore, starts c member] at before
  simpa using before

theorem Spelled.sound (spelled : token.Spelled) (ends : runsOn token.kind token.lexeme.toList = false)
    (noBreak : token.kind ≠ .newline) : token.Sound :=
  .of_cut (spelled.cut [] .nil) ends noBreak

theorem sound_word (word : Keyword) : (ofKind (.keyword word)).Sound :=
  Spelled.sound (spelled_keyword rfl rfl) rfl nofun

theorem sound_mark {mark : Symbol} (known : mark ≠ .hash) : (ofKind (.symbol mark)).Sound :=
  Spelled.sound (spelled_symbol rfl rfl known) rfl nofun

theorem sound_define : (ofKind .define).Sound :=
  have cut : Cut .define "#define".toList [] := .define .nil
  .of_cut cut rfl nofun

end Token

theorem Spells.lexeme {token : Token} {text : List Char} (spells : Spells token.kind text)
    (noBreak : token.kind ≠ .newline) (payload : token.payload = (⟨token.kind, text, []⟩ : Munch).payload) :
    token.lexeme = String.ofList text := by
  unfold Token.lexeme
  rw [payload, Munch.payload]
  generalize token.kind = kind at spells noBreak
  cases carries : kind.carriesText with
  | true => rfl
  | false =>
    simp only [noBreak, Bool.false_eq_true, if_false]
    cases spells with
    | symbol mark => exact String.ofList_toList.symm
    | keyword word => exact String.ofList_toList.symm
    | define => rfl
    | newline => exact absurd rfl noBreak
    | _ => cases carries

theorem exists_cut_of_mem_scan {source : String} {token : Token} (member : token ∈ scan source)
    (noBreak : token.kind ≠ .newline) : ∃ rest, Cut token.kind token.lexeme.toList rest := by
  obtain ⟨first, rest, visible, kind, payload⟩ := exists_read_of_mem_tokens member
  have cut : Cut (read first rest).kind (read first rest).text (read first rest).rest := read_cut rest visible
  have spells := read_spells rest visible
  rw [← kind] at cut spells
  rw [spells.lexeme noBreak (by rw [payload, kind]; rfl), String.toList_ofList]
  exact ⟨_, cut⟩

def Token.isClosed (token : Token) : Bool :=
  token.kind ≠ .string || !runsOn token.kind token.lexeme.toList

theorem sound_of_mem_scan {source : String} {token : Token} (member : token ∈ scan source)
    (noBreak : token.kind ≠ .newline) (closed : token.isClosed = true) : token.Sound := by
  cases remark : isRemarkText token.lexeme with
  | true => exact .inl remark
  | false =>
    obtain ⟨rest, cut⟩ := exists_cut_of_mem_scan member noBreak
    refine .of_cut cut ?_ noBreak
    rw [(classified_of_mem_scan member noBreak).1] at remark
    rw [Token.isClosed] at closed
    generalize token.kind = kind at remark closed
    cases kind
    case string => simpa using closed
    all_goals first
      | rfl
      | cases remark

/-! Brackets and separators. -/

def severing : List Char :=
  ['(', ')', '[', ']', '\x7b', '\x7d', ',', ';', ':']

theorem joins_severing (first : Char) {c : Char} (severs : c ∈ severing) : joins first c = false := by
  have unpaired : symbol? [first, c] = none := by
    rw [symbol?, List.find?_eq_none]
    intro mark _ same
    have isMark : mark.text.toList = [first, c] := by simpa using same
    have never : ∀ mark : Symbol, mark.text.toList.tail.all (fun c => !severing.contains c) = true := by
      intro mark
      cases mark <;> decide
    have outside := never mark
    rw [isMark] at outside
    simp [severs] at outside
  have known : severing.all (fun c => !c.isDigit && !c == '/' && !c == '*' && !c == '"' && !c == '\'') = true := by
    decide
  have outside := List.all_eq_true.mp known c severs
  simp only [Bool.and_eq_true, Bool.not_eq_true'] at outside
  obtain ⟨⟨⟨⟨noDigit, noSlash⟩, noStar⟩, noQuote⟩, noMark⟩ := outside
  simp [joins, unpaired, noDigit, noSlash, noStar, noQuote, noMark]

theorem absorbs_severing (kind : Kind) (text : List Char) {c : Char} (severs : c ∈ severing) :
    absorbs kind text c = false := by
  have known : severing.all (fun c => !isWordChar c && !c.isDigit && !c == '.') = true := by decide
  have outside := List.all_eq_true.mp known c severs
  simp only [Bool.and_eq_true, Bool.not_eq_true'] at outside
  obtain ⟨⟨noWord, noDigit⟩, noDot⟩ := outside
  unfold absorbs
  split
  · exact noWord
  · exact noWord
  · exact noWord
  · rw [noWord, noDot]; rfl
  · exact noDigit
  · exact noDigit
  · rw [joins_severing _ severs, noWord]; simp
  · rw [joins_severing _ severs, noWord]; simp
  · rfl

def isSevering (text : String) : Bool :=
  text.toList.head?.any severing.contains

theorem absorbs_blank (kind : Kind) (text : List Char) {c : Char} (blank : startsBlank c = true) :
    absorbs kind text c = false := by
  have noWord : isWordChar c = false := outside_of_startsBlank _ (by decide) blank
  have noDigit : c.isDigit = false := outside_of_startsBlank _ (by decide) blank
  have noDot : (c == '.') = false := outside_of_startsBlank (· == '.') (by decide) blank
  unfold absorbs
  split
  · exact noWord
  · exact noWord
  · exact noWord
  · rw [noWord, noDot]; rfl
  · exact noDigit
  · exact noDigit
  · rw [joins_blank _ blank, noWord]; simp
  · rw [joins_blank _ blank, noWord]; simp
  · rfl

/-- Texts that can be put behind everything: brackets, separators, blanks and nothing at all. -/
def isDetached (text : String) : Bool :=
  text.toList.head?.all fun c => severing.contains c || startsBlank c

theorem isDetached_of_isSevering {text : String} (severs : isSevering text = true) : isDetached text = true := by
  obtain ⟨c, head, member⟩ := Option.any_eq_true _ _ |>.mp severs
  rw [isDetached, head, Option.all_some, member]
  rfl

theorem Token.stopsBefore_detached (token : Token) {next : String} (detached : isDetached next = true) :
    token.stopsBefore next = true := by
  rw [stopsBefore]
  rw [isDetached] at detached
  cases head : next.toList.head? with
  | none => rfl
  | some c =>
    rw [head, Option.all_some, Bool.or_eq_true] at detached
    obtain severs | blank := detached
    · rw [Option.any_some, absorbs_severing _ _ (by simpa using severs)]
      rfl
    · rw [Option.any_some, absorbs_blank _ _ blank]
      rfl

def inertMarks : List Symbol :=
  [.leftParen, .rightParen, .rightBracket, .leftBrace, .rightBrace, .comma, .semicolon, .colon]

def Token.isInert (token : Token) : Bool :=
  inertMarks.any fun mark => token = ofKind (.symbol mark)

theorem joins_inert {mark : Symbol} (inert : mark ∈ inertMarks) {first : Char}
    (isMark : mark.text.toList = [first]) (c : Char) : joins first c = false := by
  have opens : ∀ mark ∈ inertMarks, ∀ other : Symbol, other.text.toList.length = 2 →
      other.text.toList.head? ≠ mark.text.toList.head? := by
    intro mark inert other
    revert mark
    cases other <;> decide
  have unpaired : symbol? [first, c] = none := by
    apply List.find?_eq_none.mpr
    intro other _ spelt
    have isOther : other.text.toList = [first, c] := of_decide_eq_true spelt
    refine opens mark inert other (by rw [isOther]; rfl) ?_
    rw [isOther, isMark]
    rfl
  have known : ∀ mark ∈ inertMarks, mark.text.toList.head?.all
      (fun first => first != '.' && first != '/' && first != '@') = true := by decide
  have plain := known mark inert
  rw [isMark] at plain
  simp only [List.head?_cons, Option.all_some, Bool.and_eq_true, bne_iff_ne, ne_eq] at plain
  simp [joins, unpaired, plain]

theorem ne_hash_of_inert {mark : Symbol} (inert : mark ∈ inertMarks) : mark ≠ .hash := by
  rintro rfl
  exact absurd inert (by decide)

theorem exists_text_of_inert {mark : Symbol} (inert : mark ∈ inertMarks) :
    ∃ first, mark.text.toList = [first] ∧ (first == '#') = false := by
  revert inert
  cases mark <;> first | exact fun _ => ⟨_, rfl, rfl⟩ | exact fun never => absurd never (by decide)

theorem Token.takesUp_inert {mark : Symbol} (inert : mark ∈ inertMarks) (c : Char) :
    (ofKind (.symbol mark)).takesUp c = false := by
  obtain ⟨first, isMark, _⟩ := exists_text_of_inert inert
  have taken : (ofKind (.symbol mark)).takesUp c = joins first c := by
    simp only [takesUp, ofKind, isMark]
  rw [taken, joins_inert inert isMark]

theorem Token.stopsBefore_inert {token : Token} (inert : token.isInert = true) (next : String) :
    token.stopsBefore next = true := by
  obtain ⟨mark, member, same⟩ := List.any_eq_true.mp inert
  obtain rfl : token = ofKind (.symbol mark) := of_decide_eq_true same
  obtain ⟨first, isMark, noHash⟩ := exists_text_of_inert member
  have nothing : ∀ c, absorbs (.symbol mark) [first] c = false := by
    intro c
    rw [absorbs, joins_inert member isMark, noHash]
    rfl
  have lexeme : (ofKind (.symbol mark)).lexeme.toList = [first] := isMark
  rw [stopsBefore, lexeme]
  cases next.toList.head? with
  | none => rfl
  | some c =>
    rw [Option.any_some]
    show (!absorbs (.symbol mark) [first] c) = true
    rw [nothing]
    rfl

end GmlLayout
