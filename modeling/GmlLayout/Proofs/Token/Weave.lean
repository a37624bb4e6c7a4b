import GmlLayout.Proofs.Token.Respacing
import Mathlib.Data.List.Chain

/-!
Texts that are woven from tokens and spaces. Two tokens may stand side by side if the first does not take
up the character that the second starts with. Then the scanner finds exactly the tokens that a text was
woven from.
-/

namespace GmlLayout

open Munch

namespace Token

/-- Characters that the token would take up if they came right behind it. -/
def takesUp (token : Token) (c : Char) : Bool :=
  match token.kind with
  | .identifier | .keyword _ => isWordChar c
  | .number => isWordChar c || c == '.'
  | .newline => isIndent c
  | .symbol mark =>
    match mark.text.toList with
    | [first] => joins first c
    | _ => false
  | _ => false

/-- A token that is read back from its lexeme, in front of every text that it does not take up. -/
structure Spelled (token : Token) : Prop where
  cut : ∀ rest, Stops token.takesUp rest → Cut token.kind token.lexeme.toList rest
  payload : token.payload = (⟨token.kind, token.lexeme.toList, []⟩ : Munch).payload

def IsRead (token : Token) : Prop :=
  ∃ content rest, token.payload = .text content ∧ Cut token.kind content.toList rest

def ofKind (kind : Kind) : Token :=
  ⟨kind, .none, 0, 0⟩

end Token

abbrev Piece := Option Token

namespace Piece

def toText : Piece → List Char
  | none => [' ']
  | some token => token.lexeme.toList

def Fits : Piece → Piece → Prop
  | some token, next => Stops token.takesUp next.toText
  | none, _ => True

end Piece

def wovenText (pieces : List Piece) : List Char :=
  pieces.flatMap Piece.toText

def wovenTokens (pieces : List Piece) : List Token :=
  pieces.filterMap id

theorem isGap_of_isWordChar {c : Char} (inWord : isWordChar c = true) : isGap c = false := by
  have visible := startsBlank_of_isWordChar inWord
  rw [startsBlank, Bool.or_eq_false_iff] at visible
  exact visible.1

theorem Cut.visible {kind : Kind} {text rest : List Char} (cut : Cut kind text rest) :
    text.head?.any isGap = false := by
  have digit : ∀ c : Char, c.isDigit = true → isGap c = false := fun c digit =>
    isGap_of_isWordChar (by rw [isWordChar, digit, Bool.or_true])
  have mark : ∀ {spelling : List Char} {mark : Symbol}, symbol? spelling = some mark →
      spelling.head?.any isGap = false := by
    intro spelling mark spelt
    have same : mark.text.toList = spelling := by simpa using List.find?_some spelt
    rw [← same]
    cases mark <;> decide
  cases cut with
  | word starts inside stops => exact isGap_of_isWordChar (by rw [isWordChar, starts, Bool.true_or])
  | whole starts inside stops plain => exact digit _ starts
  | fraction starts inside goesOn within stops => exact digit _ starts
  | endDot starts inside stops => exact digit _ starts
  | string quotes ends => obtain rfl | rfl := quotes <;> rfl
  | pair spelt => exact mark spelt
  | single spelt short stops => exact mark spelt
  | unidentified unknown short visible stops => exact visible
  | _ => rfl

theorem Token.Spelled.ne_nil {token : Token} (spelled : token.Spelled) : token.lexeme.toList ≠ [] := by
  intro none
  obtain ⟨first, others, shape, _⟩ := (spelled.cut [] .nil).read
  rw [none] at shape
  cases shape

theorem wovenText_cons (piece : Piece) (pieces : List Piece) :
    wovenText (piece :: pieces) = piece.toText ++ wovenText pieces :=
  rfl

theorem head?_wovenText {piece : Piece} (shown : piece.toText ≠ []) (pieces : List Piece) :
    (wovenText (piece :: pieces)).head? = piece.toText.head? := by
  obtain ⟨c, text, shape⟩ := List.exists_cons_of_ne_nil shown
  simp [wovenText_cons, shape]

theorem noGap : ∀ c ∈ ([] : List Char), isGap c = true :=
  fun _ member => nomatch member

theorem Cursor.tokens_woven {pieces : List Piece} (chain : pieces.IsChain Piece.Fits)
    (spelled : ∀ token, some token ∈ pieces → token.Spelled) {cursor : Cursor} {gap : List Char}
    (blank : ∀ c ∈ gap, isGap c = true) (rest : cursor.rest = gap ++ wovenText pieces) {bound : Nat}
    (enough : (wovenText pieces).length ≤ bound) :
    (cursor.tokens bound).map Token.unplaced = (wovenTokens pieces).map Token.unplaced := by
  induction pieces generalizing cursor gap bound with
  | nil =>
    rw [tokens_of_gap (by rw [rest]; simpa [wovenText] using blank)]
    rfl
  | cons piece pieces ih =>
    have later := fun token member => spelled token (List.mem_cons_of_mem _ member)
    cases piece with
    | none =>
      have shape : cursor.rest = (gap ++ [' ']) ++ wovenText pieces := by
        rw [rest]
        simp [wovenText_cons, Piece.toText]
      have wider : ∀ c ∈ gap ++ [' '], isGap c = true := by
        intro c member
        obtain member | member := List.mem_append.mp member
        · exact blank c member
        · rw [List.mem_singleton.mp member]
          rfl
      refine ih chain.tail later wider shape (Nat.le_trans ?_ enough)
      simp [wovenText_cons]
    | some token =>
      have isSpelled := spelled token List.mem_cons_self
      have stops : Stops token.takesUp (wovenText pieces) := by
        cases pieces with
        | nil => exact .nil
        | cons next pieces =>
          have fits : Stops token.takesUp next.toText := chain.rel
          refine fits.of_head? (head?_wovenText ?_ pieces)
          cases next with
          | none => exact List.cons_ne_nil _ _
          | some next => exact (later next List.mem_cons_self).ne_nil
      obtain ⟨first, others, shape, reread⟩ := (isSpelled.cut _ stops).read
      have visible : isGap first = false := by
        have visible := (isSpelled.cut _ stops).visible
        rw [shape] at visible
        exact visible
      have split : cursor.rest = gap ++ first :: (others ++ wovenText pieces) := by
        rw [rest]
        simp [wovenText_cons, Piece.toText, shape]
      obtain ⟨found, next, placed⟩ := next_eq split blank visible
      have same : found.unplaced = token.unplaced := by
        rw [placed, reread, Token.unplaced, isSpelled.payload]
        rfl
      have longer : (wovenText (some token :: pieces)).length =
          others.length + 1 + (wovenText pieces).length := by
        rw [wovenText_cons, List.length_append, Piece.toText, shape, List.length_cons]
      cases bound with
      | zero => omega
      | succ bound =>
        rw [tokens, next]
        refine congrArg₂ List.cons same (ih chain.tail later noGap ?_ (by omega))
        show (read first (others ++ wovenText pieces)).rest = _
        rw [reread]
        rfl

theorem scan_woven {pieces : List Piece} (chain : pieces.IsChain Piece.Fits)
    (spelled : ∀ token, some token ∈ pieces → token.Spelled) {source : String}
    (woven : source.toList = wovenText pieces) :
    (scan source).map Token.unplaced = (wovenTokens pieces).map Token.unplaced := by
  exact Cursor.tokens_woven chain spelled noGap woven (Nat.le_of_eq (by rw [woven]))

theorem isWordChar_of_isHexDigit {c : Char} (hex : isHexDigit c = true) : isWordChar c = true := by
  simp only [isHexDigit, isWordChar, Bool.or_eq_true, Bool.and_eq_true, decide_eq_true_eq] at hex ⊢
  obtain (digit | lower) | upper := hex
  · exact .inr digit
  · exact .inl (isWordStart_iff.mpr (.inl (.inr ⟨lower.1, Char.le_trans lower.2 (by decide)⟩)))
  · exact .inl (isWordStart_iff.mpr (.inl (.inl ⟨upper.1, Char.le_trans upper.2 (by decide)⟩)))

namespace Cut

variable {text rest other : List Char}

theorem wordKind_ne {kind : Kind} (spelling : List Char) (noKeyword : ∀ keyword, kind ≠ .keyword keyword)
    (noName : kind ≠ .identifier) : kind ≠ wordKind spelling := by
  unfold wordKind
  split
  · exact noKeyword _
  · exact noName

theorem identifier_again (cut : Cut .identifier text rest) (stops : Stops isWordChar other) :
    Cut .identifier text other := by
  generalize kindEq : Kind.identifier = kind at cut
  cases cut with
  | word starts inside _ => exact .word starts inside stops
  | _ => cases kindEq

/-- A number is cut off in front of everything that is neither part of a word nor a point. -/
theorem number_again (cut : Cut .number text rest)
    (stops : Stops (fun c => isWordChar c || c == '.') other) : Cut .number text other := by
  have noWord : Stops isWordChar other := stops.weaken fun c outside => (Bool.or_eq_false_iff.mp outside).1
  have noHex : Stops isHexDigit other := noWord.weaken fun c outside => by
    rw [Bool.eq_false_iff] at outside ⊢
    exact fun hex => outside (isWordChar_of_isHexDigit hex)
  have noDigit : Stops Char.isDigit other := noWord.weaken fun c outside =>
    (Bool.or_eq_false_iff.mp outside).2
  generalize kindEq : Kind.number = kind at cut
  cases cut with
  | word starts inside _ => exact absurd kindEq (wordKind_ne _ (by simp) (by simp))
  | hexadecimal inside _ => exact .hexadecimal inside noHex
  | color inside _ => exact .color inside noHex
  | whole starts inside _ plain =>
    have noPoint : Stops (fun c => c.isDigit || c == '.') other := stops.weaken fun c outside => by
      simp only [isWordChar, Bool.or_eq_false_iff] at outside ⊢
      exact ⟨outside.1.2, outside.2⟩
    have noX : Stops (· == 'x') other := noWord.weaken fun c outside => by
      rw [beq_eq_false_iff_ne]
      rintro rfl
      cases outside
    exact .whole starts inside noPoint fun _ _ => noX
  | fraction starts inside goesOn within _ => exact .fraction starts inside goesOn within noDigit
  | _ => cases kindEq

theorem string_again (cut : Cut .string text rest) (closed : runsOn .string text = false)
    (quoted : text.head? ≠ some '@') (other : List Char) : Cut .string text other := by
  generalize kindEq : Kind.string = kind at cut
  cases cut with
  | word starts inside _ => exact absurd kindEq (wordKind_ne _ (by simp) (by simp))
  | @string quote body rest quotes ends =>
    have closes : closesQuote quote (escapes quote) body = true := by
      obtain rfl | rfl := quotes
      · simpa [runsOn] using closed
      · simpa [runsOn] using closed
    have visible : quote ≠ '\n' := by
      obtain rfl | rfl := quotes <;> decide
    have again := @quotedString_again quote (escapes quote) visible (body ++ rest) other
    simp only [ends] at again
    exact .string quotes (again (.inr closes))
  | rawString quotes ends => exact absurd rfl quoted
  | _ => cases kindEq

end Cut

namespace Token

variable {token next : Token}

def Starts (token : Token) (inClass : Char → Bool) : Prop :=
  token.lexeme.toList.head?.any inClass = true

def IsLiteral (token : Token) : Prop :=
  token.IsRead ∧ (token.kind = .number ∨
    token.kind = .string ∧ runsOn .string token.lexeme.toList = false ∧ ¬ token.Starts (· == '@'))

theorem lexeme_of_text {content : String} (payload : token.payload = .text content) :
    token.lexeme = content := by
  rw [lexeme, payload]

theorem lexeme_of_fixed (fixed : token.payload = .none) : token.lexeme = token.kind.fixedText := by
  rw [lexeme, fixed]

theorem IsRead.payload (read : token.IsRead) (carries : token.kind.carriesText = true) :
    token.payload = (⟨token.kind, token.lexeme.toList, []⟩ : Munch).payload := by
  obtain ⟨content, _, isText, _⟩ := read
  rw [lexeme_of_text isText, Munch.payload, if_pos carries, isText, String.ofList_toList]

theorem IsRead.cut (read : token.IsRead) : ∃ rest, Cut token.kind token.lexeme.toList rest := by
  obtain ⟨content, rest, isText, cut⟩ := read
  exact ⟨rest, by rw [lexeme_of_text isText]; exact cut⟩

theorem spelled_name (isName : token.kind = .identifier) (read : token.IsRead) : token.Spelled := by
  obtain ⟨rest, cut⟩ := read.cut
  refine ⟨fun other stops => ?_, read.payload (by rw [isName]; rfl)⟩
  have ends : token.takesUp = isWordChar := by
    funext c
    simp only [takesUp, isName]
  rw [isName] at cut ⊢
  exact cut.identifier_again (ends ▸ stops)

theorem spelled_literal (literal : token.IsLiteral) : token.Spelled := by
  obtain ⟨read, isNumber | ⟨isString, closed, quoted⟩⟩ := literal
  · obtain ⟨rest, cut⟩ := read.cut
    refine ⟨fun other stops => ?_, read.payload (by rw [isNumber]; rfl)⟩
    have ends : token.takesUp = fun c => isWordChar c || c == '.' := by
      funext c
      simp only [takesUp, isNumber]
    rw [isNumber] at cut ⊢
    exact cut.number_again (ends ▸ stops)
  · obtain ⟨rest, cut⟩ := read.cut
    refine ⟨fun other _ => ?_, read.payload (by rw [isString]; rfl)⟩
    rw [isString] at cut ⊢
    refine cut.string_again closed (fun isAt => quoted ?_) other
    rw [Starts, isAt]
    rfl

theorem spelled_symbol {mark : Symbol} (isMark : token.kind = .symbol mark)
    (fixed : token.payload = .none) (known : mark ≠ .hash) : token.Spelled := by
  have shapes : (∃ first, mark.text.toList = [first] ∧ symbol? [first] = some mark ∧
      startsLong first = false) ∨
      ∃ first second, mark.text.toList = [first, second] ∧ symbol? [first, second] = some mark := by
    cases mark
    case hash => exact absurd rfl known
    all_goals first
      | exact .inl ⟨_, rfl, by decide, by decide⟩
      | exact .inr ⟨_, _, rfl, by decide⟩
  have spelling : token.lexeme = mark.text := by
    rw [lexeme_of_fixed fixed, isMark]
    rfl
  refine ⟨fun rest stops => ?_, ?_⟩
  · rw [isMark, spelling]
    obtain ⟨first, shape, spelt, short⟩ | ⟨first, second, shape, spelt⟩ := shapes
    · have ends : token.takesUp = joins first := by
        funext c
        simp only [takesUp, isMark, shape]
      rw [shape]
      exact .single spelt short (ends ▸ stops)
    · rw [shape]
      exact .pair spelt
  · rw [fixed, Munch.payload, isMark]
    rfl

theorem spelled_keyword {word : Keyword} (isWord : token.kind = .keyword word)
    (fixed : token.payload = .none) : token.Spelled := by
  have shape : ∃ first others, word.text.toList = first :: others ∧ isWordStart first = true ∧
      others.all isWordChar = true ∧ wordKind (first :: others) = .keyword word := by
    cases word <;> exact ⟨_, _, rfl, by decide, by decide, by decide⟩
  obtain ⟨first, others, shape, starts, inside, kind⟩ := shape
  have spelling : token.lexeme = word.text := by
    rw [lexeme_of_fixed fixed, isWord]
    rfl
  refine ⟨fun rest stops => ?_, ?_⟩
  · have ends : token.takesUp = isWordChar := by
      funext c
      simp only [takesUp, isWord]
    rw [isWord, spelling, shape, ← kind]
    exact .word starts (List.all_eq_true.mp inside) (ends ▸ stops)
  · rw [fixed, Munch.payload, isWord]
    rfl

def lineBreak : Token :=
  ⟨.newline, .hint 0, 0, 0⟩

theorem spelled_lineBreak : lineBreak.Spelled := by
  refine ⟨fun rest stops => ?_, rfl⟩
  exact .newline (fun _ member => nomatch member) stops

theorem Spelled.fits_lineBreak (spelled : next.Spelled) : Piece.Fits (some lineBreak) (some next) := by
  intro c member
  have member : next.lexeme.toList.head? = some c := member
  have visible := (spelled.cut [] .nil).visible
  rw [member] at visible
  exact (Bool.or_eq_false_iff.mp visible).1

theorem semicolon_fits_lineBreak : Piece.Fits (some (ofKind (.symbol .semicolon))) (some lineBreak) := by
  intro c member
  cases member
  decide

theorem takesUp_space (visible : token.kind ≠ .newline) : token.takesUp ' ' = false := by
  unfold takesUp
  split
  · decide
  · decide
  · decide
  · rename_i isBreak
    exact absurd isBreak visible
  · split
    · exact joins_blank _ (by decide)
    · rfl
  · rfl

theorem fits_of_starts {inClass : Char → Bool} (starts : next.Starts inClass)
    (free : ∀ c, inClass c = true → token.takesUp c = false) : Piece.Fits (some token) (some next) := by
  intro c member
  unfold Starts at starts
  have member : next.lexeme.toList.head? = some c := member
  rw [member] at starts
  exact free c starts

end Token

/-- Pieces that are woven into a text, from the first token to the last. -/
structure Weave (pieces : List Piece) (first last : Token) : Prop where
  head : pieces.head? = some (some first)
  ends : pieces.getLast? = some (some last)
  chain : pieces.IsChain Piece.Fits
  spelled : ∀ token, some token ∈ pieces → token.Spelled

namespace Weave

variable {pieces others : List Piece} {first last start stop : Token}

theorem single (spelled : first.Spelled) : Weave [some first] first first where
  head := rfl
  ends := rfl
  chain := List.isChain_singleton _
  spelled token member := by
    cases List.mem_singleton.mp member
    exact spelled

theorem join (front : Weave pieces first last) (back : Weave others start stop)
    (fits : Piece.Fits (some last) (some start)) : Weave (pieces ++ others) first stop where
  head := by rw [List.head?_append, front.head]; rfl
  ends := by rw [List.getLast?_append, back.ends]; rfl
  chain := by
    refine front.chain.append back.chain fun piece lastPiece next firstPiece => ?_
    rw [front.ends] at lastPiece
    rw [back.head] at firstPiece
    cases lastPiece
    cases firstPiece
    exact fits
  spelled token member := by
    obtain member | member := List.mem_append.mp member
    · exact front.spelled token member
    · exact back.spelled token member

theorem space (front : Weave pieces first last) (visible : last.kind ≠ .newline)
    (back : Weave others start stop) : Weave (pieces ++ none :: others) first stop where
  head := by rw [List.head?_append, front.head]; rfl
  ends := by rw [List.getLast?_append, List.getLast?_cons, back.ends]; rfl
  chain := by
    refine front.chain.append ?_ fun piece lastPiece next firstPiece => ?_
    · refine back.chain.cons fun _ _ => trivial
    · rw [front.ends] at lastPiece
      cases lastPiece
      cases firstPiece
      exact .cons (Token.takesUp_space visible)
  spelled token member := by
    simp only [List.mem_append, List.mem_cons, reduceCtorEq, false_or] at member
    obtain member | member := member
    · exact front.spelled token member
    · exact back.spelled token member

theorem exists_tokens (weave : Weave pieces first last) :
    ∃ others, wovenTokens pieces = first :: others := by
  have head := weave.head
  cases pieces with
  | nil => cases head
  | cons piece pieces =>
    cases head
    exact ⟨wovenTokens pieces, rfl⟩

theorem exists_lineBreaks (weave : Weave pieces first last)
    (fits : Piece.Fits (some last) (some Token.lineBreak)) (count : Nat) :
    ∃ stop, Weave (pieces ++ List.replicate count (some Token.lineBreak)) first stop := by
  induction count generalizing pieces last with
  | zero => exact ⟨last, by simpa using weave⟩
  | succ count ih =>
    have broken := weave.join (.single Token.spelled_lineBreak) fits
    obtain ⟨stop, whole⟩ := ih broken Token.spelled_lineBreak.fits_lineBreak
    exact ⟨stop, by simpa [List.replicate_succ] using whole⟩

theorem lineBreaks (count : Nat) : Weave (List.replicate (count + 1) (some .lineBreak)) .lineBreak .lineBreak := by
  have one := single Token.spelled_lineBreak
  induction count with
  | zero => exact one
  | succ count ih => exact one.join ih Token.spelled_lineBreak.fits_lineBreak

theorem exists_append (weave : Weave pieces first last) : ∃ before, pieces = before ++ [some last] :=
  List.getLast?_eq_some_iff.mp weave.ends

end Weave

end GmlLayout
