import GmlLayout.Proofs.Grammar.Refusal
import GmlLayout.Proofs.Token.Placement

/-!
Where the report of an error points. Tokens are placed by line feeds alone, while a report takes its line
out of the lines on a screen, which other characters end too. Both agree as long as nothing but a line
feed, perhaps with a carriage return before it, has ended a line in front of the token; otherwise the
report shows a line above the one the token stands on.
-/

namespace GmlLayout

namespace Text

/-- How many lines a text has ended on a screen, and what it leaves on the last one. The line read so far
is given last character first. -/
def screenFrom (current : List Char) : List Char → Nat × List Char
  | [] => (0, current.reverse)
  | '\r' :: '\n' :: rest => ((screenFrom [] rest).1 + 1, (screenFrom [] rest).2)
  | c :: rest =>
    if isLineBreak c then ((screenFrom [] rest).1 + 1, (screenFrom [] rest).2)
    else screenFrom (c :: current) rest

def screen (text : List Char) : Nat × List Char :=
  screenFrom [] text

/-- Nothing but line feeds, perhaps with a carriage return before them, ends a line of the text. -/
def feedsOnly : List Char → Bool
  | [] => true
  | '\r' :: '\n' :: rest => feedsOnly rest
  | c :: rest => (c == '\n' || !isLineBreak c) && feedsOnly rest

def lastRow (text : List Char) : List Char :=
  (text.reverse.takeWhile (· != '\n')).reverse

theorem linesFrom_begun {current : List Char} (begun : current ≠ []) (text : List Char) :
    ∃ rest, (linesFrom current text)[0]? = some (current.reverse ++ rest) := by
  fun_induction linesFrom current text with
  | case1 current none => exact absurd (List.isEmpty_iff.mp none) begun
  | case2 current some => exact ⟨[], by simp⟩
  | case3 current rest ih => exact ⟨[], by simp⟩
  | case4 current c rest other breaks ih => exact ⟨[], by simp⟩
  | case5 current c rest other plain ih =>
    obtain ⟨rest, shape⟩ := ih (List.cons_ne_nil _ _)
    exact ⟨c :: rest, by simpa using shape⟩

theorem linesFrom_cons {current : List Char} {c : Char} {rest : List Char}
    (apart : ∀ later, c = '\r' → rest = '\n' :: later → False) :
    linesFrom current (c :: rest) =
      if isLineBreak c then current.reverse :: linesFrom [] rest else linesFrom (c :: current) rest := by
  generalize whole : c :: rest = text
  fun_cases linesFrom current text with
  | case1 => cases whole
  | case2 => cases whole
  | case3 later =>
    obtain ⟨rfl, rfl⟩ := List.cons.inj whole
    exact (apart later rfl rfl).elim
  | case4 _ _ _ breaks =>
    obtain ⟨rfl, rfl⟩ := List.cons.inj whole
    rw [if_pos breaks]
  | case5 _ _ _ plain =>
    obtain ⟨rfl, rfl⟩ := List.cons.inj whole
    rw [if_neg plain]

/-- A character that ends no line stands on the line that the text in front of it leaves. -/
theorem linesFrom_screen {c : Char} (plain : isLineBreak c = false) (current front behind : List Char) :
    ∃ rest, (linesFrom current (front ++ c :: behind))[(screenFrom current front).1]? =
      some ((screenFrom current front).2 ++ c :: rest) := by
  have unfed : c ≠ '\n' := by
    rintro rfl
    cases plain
  have unreturned : c ≠ '\r' := by
    rintro rfl
    cases plain
  fun_induction screenFrom current front with
  | case1 current =>
    obtain ⟨rest, shape⟩ := linesFrom_begun (List.cons_ne_nil c current) behind
    refine ⟨rest, ?_⟩
    rw [List.nil_append, linesFrom_cons fun _ returned => absurd returned unreturned, plain]
    simpa using shape
  | case2 current front ih => exact ih
  | case3 current first front other breaks ih =>
    have apart : ∀ later, first = '\r' → front ++ c :: behind = '\n' :: later → False := by
      intro later returned fed
      cases front with
      | nil => exact unfed (List.cons.inj fed).1
      | cons second front => exact other front returned (by rw [(List.cons.inj fed).1])
    rw [List.cons_append, linesFrom_cons apart, breaks]
    exact ih
  | case4 current first front other breaks ih =>
    have apart : ∀ later, first = '\r' → front ++ c :: behind = '\n' :: later → False := by
      rintro later rfl
      exact absurd rfl breaks
    rw [List.cons_append, linesFrom_cons apart, if_neg breaks]
    exact ih

theorem plain_of_mem_linesFrom {current text line : List Char}
    (begun : ∀ c ∈ current, isLineBreak c = false) (member : line ∈ linesFrom current text) :
    ∀ c ∈ line, isLineBreak c = false := by
  fun_induction linesFrom current text with
  | case1 => cases member
  | case2 current some =>
    obtain rfl := List.mem_singleton.mp member
    simpa using begun
  | case3 current rest ih =>
    obtain rfl | later := List.mem_cons.mp member
    · simpa using begun
    · exact ih nofun later
  | case4 current c rest other breaks ih =>
    obtain rfl | later := List.mem_cons.mp member
    · simpa using begun
    · exact ih nofun later
  | case5 current c rest other plain ih =>
    exact ih (List.forall_mem_cons.mpr ⟨Bool.eq_false_iff.mpr plain, begun⟩) member

theorem count_cons_newline (c : Char) (text : List Char) :
    (c :: text).count '\n' = (if c = '\n' then 1 else 0) + text.count '\n' := by
  rw [List.count_cons, Nat.add_comm]
  simp

/-- On a screen no fewer lines are ended than there are line feeds, and more if anything else ends one. -/
theorem count_screenFrom (current text : List Char) :
    text.count '\n' ≤ (screenFrom current text).1 ∧
      (feedsOnly text = false → text.count '\n' < (screenFrom current text).1) := by
  fun_induction screenFrom current text with
  | case1 current => exact ⟨Nat.le_refl 0, fun more => by cases more⟩
  | case2 current rest ih =>
    rw [count_cons_newline, count_cons_newline, feedsOnly]
    simp only [Char.reduceEq, if_false, if_true]
    refine ⟨by omega, fun more => ?_⟩
    have := ih.2 more
    omega
  | case3 current c rest other breaks ih =>
    rw [count_cons_newline, feedsOnly.eq_3 _ _ other, breaks]
    by_cases fed : c = '\n'
    · rw [if_pos fed, fed]
      refine ⟨by omega, fun more => ?_⟩
      have := ih.2 more
      omega
    · rw [if_neg fed]
      omega
  | case4 current c rest other plain ih =>
    have unfed : c ≠ '\n' := by
      rintro rfl
      exact plain rfl
    rw [count_cons_newline, if_neg unfed, Nat.zero_add, feedsOnly.eq_3 _ _ other,
      Bool.eq_false_iff.mpr plain, Bool.not_false, Bool.or_true, Bool.true_and]
    exact ih

theorem lastRow_concat (text : List Char) (c : Char) :
    lastRow (text ++ [c]) = if c = '\n' then [] else lastRow text ++ [c] := by
  unfold lastRow
  rw [List.reverse_append, List.reverse_singleton, List.singleton_append, List.takeWhile_cons]
  by_cases fed : c = '\n' <;> simp [fed]

theorem lastRow_append (front back : List Char) :
    lastRow (front ++ back) = if '\n' ∈ back then lastRow back else lastRow front ++ back := by
  induction back using List.reverseRecOn with
  | nil => simp
  | append_singleton back c ih =>
    rw [← List.append_assoc, lastRow_concat, lastRow_concat, ih]
    by_cases fed : c = '\n'
    · simp [fed]
    · by_cases earlier : '\n' ∈ back <;> simp [fed, Ne.symm fed, earlier]

theorem lastRow_cons (c : Char) (text : List Char) :
    lastRow (c :: text) = if c = '\n' ∨ '\n' ∈ text then lastRow text else c :: lastRow text := by
  have alone := lastRow_append [] text
  have whole := lastRow_append [c] text
  rw [List.singleton_append] at whole
  have first : lastRow [c] = if c = '\n' then [] else [c] := lastRow_concat [] c
  by_cases later : '\n' ∈ text
  · rw [whole, if_pos later, if_pos (.inr later)]
  · rw [whole, if_neg later, first]
    rw [List.nil_append, if_neg later] at alone
    by_cases fed : c = '\n'
    · rw [if_pos fed, if_pos (.inl fed), alone]
      rfl
    · rw [if_neg fed, if_neg (not_or.mpr ⟨fed, later⟩), alone]
      rfl

/-- Where nothing but line feeds ends a line, the lines on a screen are those between line feeds. -/
theorem screenFrom_of_feedsOnly {text : List Char} (feeds : feedsOnly text = true) (current : List Char) :
    screenFrom current text =
      (text.count '\n', if '\n' ∈ text then lastRow text else current.reverse ++ lastRow text) := by
  fun_induction screenFrom current text with
  | case1 current => simp [lastRow]
  | case2 current rest ih =>
    rw [ih feeds, count_cons_newline, count_cons_newline, lastRow_cons, lastRow_cons]
    simp [Nat.add_comm]
  | case3 current c rest other breaks ih =>
    rw [feedsOnly.eq_3 _ _ other, breaks, Bool.not_true, Bool.or_false, Bool.and_eq_true, beq_iff_eq] at feeds
    rw [ih feeds.2, feeds.1, count_cons_newline, lastRow_cons]
    simp [Nat.add_comm]
  | case4 current c rest other plain ih =>
    have unfed : c ≠ '\n' := by
      rintro rfl
      exact plain rfl
    rw [feedsOnly.eq_3 _ _ other, Bool.and_eq_true] at feeds
    rw [ih feeds.2, count_cons_newline, if_neg unfed, Nat.zero_add, lastRow_cons]
    by_cases later : '\n' ∈ rest <;> simp [unfed, Ne.symm unfed, later]

theorem return_notMem_lastRow {text : List Char} (feeds : feedsOnly text = true) : '\r' ∉ lastRow text := by
  fun_induction feedsOnly text with
  | case1 => exact List.not_mem_nil
  | case2 rest ih =>
    rw [lastRow_cons, lastRow_cons]
    simpa using ih feeds
  | case3 c rest other ih =>
    rw [Bool.and_eq_true] at feeds
    rw [lastRow_cons]
    have unreturned : c ≠ '\r' := by
      rintro rfl
      cases feeds.1
    split
    · exact ih feeds.2
    · simpa [Ne.symm unreturned] using ih feeds.2

end Text

open Munch

/-- The column of a place counts the characters of its row, unless carriage returns stand between tokens
there. -/
theorem lastRow_counted {stretches : List Stretch}
    (gaps : ∀ blanks, .gap blanks ∈ stretches → ∀ c ∈ blanks, isGap c = true)
    (unreturned : '\r' ∉ Text.lastRow (stretches.flatMap Stretch.text)) :
    Text.lastRow (stretches.flatMap Stretch.counted) = Text.lastRow (stretches.flatMap Stretch.text) := by
  induction stretches using List.reverseRecOn with
  | nil => rfl
  | append_singleton front last ih =>
    have inside := ih fun blanks member => gaps blanks (List.mem_append_left _ member)
    rw [List.flatMap_append, List.flatMap_singleton] at unreturned
    rw [List.flatMap_append, List.flatMap_append, List.flatMap_singleton, List.flatMap_singleton]
    cases last with
    | gap blanks =>
      have unfed : '\n' ∉ blanks := by
        intro fed
        cases gaps blanks (List.mem_append_right _ (List.mem_singleton_self _)) _ fed
      have split := Text.lastRow_append (front.flatMap Stretch.text) blanks
      rw [if_neg unfed] at split
      rw [Stretch.text, split, List.mem_append, not_or] at unreturned
      have same : blanks.filter (· != '\r') = blanks := by
        rw [List.filter_eq_self]
        intro c member
        rw [bne_iff_ne]
        rintro rfl
        exact unreturned.2 member
      rw [Stretch.text, Stretch.counted, same, split, Text.lastRow_append, if_neg unfed, inside unreturned.1]
    | written token =>
      rw [Stretch.text, Text.lastRow_append] at unreturned
      rw [Stretch.text, Stretch.counted, Text.lastRow_append, Text.lastRow_append]
      by_cases fed : '\n' ∈ token.lexeme.toList
      · rw [if_pos fed, if_pos fed]
      · rw [if_neg fed, List.mem_append, not_or] at unreturned
        rw [if_neg fed, if_neg fed, inside unreturned.1]

/-- In the source the token stands behind the text `front`, and `first` is its first character. -/
def Token.StandsBehind (token : Token) (source : String) (front : List Char) (first : Char) : Prop :=
  ∃ (before behind : List Stretch) (others : List Char),
    (before ++ .written token :: behind).flatMap Stretch.text = source.toList ∧
    (before ++ .written token :: behind).filterMap Stretch.token? = scan source ∧
    (∀ blanks, .gap blanks ∈ before ++ .written token :: behind → ∀ c ∈ blanks, isGap c = true) ∧
    before.flatMap Stretch.text = front ∧ token.lexeme.toList = first :: others

theorem Token.StandsBehind.exists_text {token : Token} {source : String} {front : List Char} {first : Char}
    (stands : token.StandsBehind source front first) : ∃ behind, source.toList = front ++ first :: behind := by
  obtain ⟨before, behind, others, whole, _, _, rfl, shape⟩ := stands
  refine ⟨others ++ behind.flatMap Stretch.text, ?_⟩
  rw [← whole, List.flatMap_append, List.flatMap_cons, Stretch.text, shape, List.cons_append]

theorem lexeme_ne_nil {source : String} {token : Token} (member : token ∈ scan source) :
    token.lexeme.toList ≠ [] := by
  by_cases lineBreak : token.kind = .newline
  · rw [lexeme_eq_fixedText member (by rw [lineBreak]; rfl), lineBreak]
    decide
  · exact (spells_of_mem_scan member lineBreak).ne_nil

/-- Each token stands somewhere, and its line and its column tell where: carriage returns between the tokens
of its row aside. -/
theorem exists_standsBehind {source : String} {token : Token} (member : token ∈ scan source) :
    ∃ front first, token.StandsBehind source front first ∧ token.line = front.count '\n' ∧
      ('\r' ∉ Text.lastRow front → token.column = (Text.lastRow front).length) := by
  obtain ⟨stretches, text, tokens, gaps, placed⟩ :=
    @Cursor.tokens_placed (.start source.toList) source.toList.length (Nat.le_refl _)
  have among : token ∈ stretches.filterMap Stretch.token? := by
    rw [tokens]
    exact member
  obtain ⟨stretch, held, isToken⟩ := List.mem_filterMap.mp among
  obtain ⟨first, others, shape⟩ := List.exists_cons_of_ne_nil (lexeme_ne_nil member)
  cases stretch with
  | gap blanks => cases isToken
  | written other =>
    cases isToken
    obtain ⟨before, behind, rfl⟩ := List.append_of_mem held
    obtain ⟨row, place, _⟩ := placed before token behind rfl
    refine ⟨_, first, ⟨before, behind, others, text, tokens, gaps, rfl, shape⟩, ?_, fun unreturned => ?_⟩
    · rw [row]
      exact Nat.zero_add _
    · have counted := lastRow_counted (fun blanks inside => gaps blanks (List.mem_append_left _ inside))
        unreturned
      rw [place, ← counted, Text.lastRow, List.length_reverse, ← Cursor.columnAfter_zero]
      rfl

namespace Diagnostic

variable {diagnostic : Diagnostic} {source : String} {line column : Nat} {shown : List Char}

theorem render_eq (unfiled : diagnostic.detail? "file" = none)
    (row : diagnostic.line = some ((line : Int) + 1)) (place : diagnostic.column = some ((column : Int) + 1))
    (found : (Text.linesFrom [] source.toList)[line]? = some shown) (inside : column < shown.length) :
    diagnostic.render source = diagnostic.message ++ "\n" ++ String.ofList shown ++ "\n"
      ++ String.ofList (List.replicate column ' ') ++ "^" := by
  have taken : diagnostic.sourceLine? source = some (String.ofList shown) := by
    have below : ¬((line : Int) + 1 < 1) := by omega
    have index : ((line : Int) + 1 - 1).toNat = line := by omega
    simp only [sourceLine?, row, Option.bind_eq_bind, Option.bind_some, if_neg below, index, Text.lines,
      List.getElem?_map, found, Option.map_some]
  have offset : caretOffset diagnostic.column (String.ofList shown) = column := by
    unfold caretOffset
    rw [place, Option.getD_some, String.length_ofList]
    omega
  have unprefaced : diagnostic.fileLine = "" := by
    unfold fileLine
    rw [unfiled]
  simp only [render, taken, unprefaced, caretLine, offset, String.empty_append, String.append_assoc]

end Diagnostic

theorem mem_scan_of_refused {source : String} {cause : ParseError} {token : Token}
    (refused : parse source = .error cause) (named : cause.token? = some token) : token ∈ scan source := by
  obtain ⟨stop, failed⟩ := exists_of_parse_eq_error refused
  have located := parseTokens_located failed
  simp only [ParseError.Located, named] at located
  obtain ⟨before, split⟩ := located
  rw [split]
  exact List.mem_append_right _ List.mem_cons_self

/-- The report of an error that names a token. If nothing but line feeds has ended a line in front of the
token, and its first character ends none, the report closes with the token's row, through that character at
least, and a caret under it. Otherwise the character is on no line at all, or the line that the report
shows is above the one the token stands on. -/
theorem error_shown {source : String} {cause : ParseError} {token : Token}
    (refused : parse source = .error cause) (named : cause.token? = some token) :
    ∃ front first, token.StandsBehind source front first ∧
      (Text.feedsOnly front = true → Text.isLineBreak first = false → ∃ rest,
        cause.diagnostic.render source =
          cause.diagnostic.message ++ "\n" ++ String.ofList (Text.lastRow front ++ first :: rest) ++ "\n"
            ++ String.ofList (List.replicate (Text.lastRow front).length ' ') ++ "^") ∧
      (Text.feedsOnly front = false → Text.isLineBreak first = false →
        token.line < (Text.screen front).1 ∧ ∃ rest, (Text.lines source)[(Text.screen front).1]? =
          some (String.ofList ((Text.screen front).2 ++ first :: rest))) ∧
      (Text.isLineBreak first = true → ∀ line ∈ Text.lines source, first ∉ line.toList) := by
  obtain ⟨front, first, stands, row, place⟩ := exists_standsBehind (mem_scan_of_refused refused named)
  obtain ⟨behind, whole⟩ := stands.exists_text
  have found : Text.isLineBreak first = false → ∃ rest, (Text.linesFrom [] source.toList)[(Text.screen front).1]? =
      some ((Text.screen front).2 ++ first :: rest) := by
    intro plain
    rw [whole]
    exact Text.linesFrom_screen plain [] front behind
  refine ⟨front, first, stands, fun feeds plain => ?_, fun mixed plain => ?_, fun breaks line shown => ?_⟩
  · obtain ⟨rest, shown⟩ := found plain
    have screen : Text.screen front = (token.line, Text.lastRow front) := by
      rw [Text.screen, Text.screenFrom_of_feedsOnly feeds, row]
      simp
    rw [screen] at shown
    obtain ⟨isLine, isColumn, details⟩ := ParseError.diagnostic_of_named named
    have unfiled : cause.diagnostic.detail? "file" = none := by
      rw [Diagnostic.detail?, details]
      rfl
    have inside : token.column < (Text.lastRow front ++ first :: rest).length := by
      rw [place (Text.return_notMem_lastRow feeds), List.length_append, List.length_cons]
      omega
    have rendered := Diagnostic.render_eq unfiled isLine isColumn shown inside
    rw [place (Text.return_notMem_lastRow feeds)] at rendered
    exact ⟨rest, rendered⟩
  · obtain ⟨rest, shown⟩ := found plain
    refine ⟨?_, rest, ?_⟩
    · rw [row]
      exact (Text.count_screenFrom [] front).2 mixed
    · rw [Text.lines, List.getElem?_map, shown, Option.map_some]
  · obtain ⟨characters, member, rfl⟩ := List.mem_map.mp shown
    intro among
    rw [String.toList_ofList] at among
    have plain := @Text.plain_of_mem_linesFrom [] _ _ (by simp) member first among
    rw [breaks] at plain
    cases plain

theorem refused_of_checked {source : String} {cause : ParseError}
    (checked : (match parse source with
      | .ok _ => none
      | .error cause => some cause) = some cause) : parse source = .error cause := by
  cases result : parse source with
  | ok program =>
    rw [result] at checked
    cases checked
  | error other =>
    rw [result] at checked
    rw [Option.some.inj checked]

/-- A statement between the branches of a switch, on the second line. -/
theorem error_shown_switch : ∃ cause token,
    parse "f();\r\nswitch (x) \x7b y \x7d" = .error cause ∧ cause.token? = some token ∧
      token = ⟨.identifier, .text "y", 1, 13⟩ ∧
      cause.diagnostic.render "f();\r\nswitch (x) \x7b y \x7d" =
        cause.diagnostic.message ++ "\nswitch (x) \x7b y \x7d\n             ^" ∧ ∃ front first,
      token.StandsBehind "f();\r\nswitch (x) \x7b y \x7d" front first ∧
      (Text.feedsOnly front = true → Text.isLineBreak first = false → ∃ rest,
        cause.diagnostic.render "f();\r\nswitch (x) \x7b y \x7d" =
          cause.diagnostic.message ++ "\n" ++ String.ofList (Text.lastRow front ++ first :: rest) ++ "\n"
            ++ String.ofList (List.replicate (Text.lastRow front).length ' ') ++ "^") ∧
      (Text.feedsOnly front = false → Text.isLineBreak first = false →
        token.line < (Text.screen front).1 ∧
          ∃ rest, (Text.lines "f();\r\nswitch (x) \x7b y \x7d")[(Text.screen front).1]? =
            some (String.ofList ((Text.screen front).2 ++ first :: rest))) ∧
      (Text.isLineBreak first = true →
        ∀ line ∈ Text.lines "f();\r\nswitch (x) \x7b y \x7d", first ∉ line.toList) := by
  have refused : parse "f();\r\nswitch (x) \x7b y \x7d" =
      .error (.unknownInSwitch ⟨.identifier, .text "y", 1, 13⟩) := refused_of_checked (by decide +kernel)
  exact ⟨_, _, refused, rfl, rfl, by decide +kernel, error_shown refused rfl⟩

/-- A form feed in a comment ends a line on a screen, so the report of an error in the row below shows the
rest of the comment, with the caret right behind it. -/
theorem error_shown_above : ∃ cause, parse "// a\x0cb\nswitch (x) \x7b y \x7d" = .error cause ∧
    cause = .unknownInSwitch ⟨.identifier, .text "y", 1, 13⟩ ∧
    cause.diagnostic.render "// a\x0cb\nswitch (x) \x7b y \x7d" =
      cause.diagnostic.message ++ "\n" ++ "b" ++ "\n" ++ " ^" := by
  refine ⟨_, refused_of_checked ?_, rfl, ?_⟩
  · decide +kernel
  · decide +kernel

end GmlLayout
