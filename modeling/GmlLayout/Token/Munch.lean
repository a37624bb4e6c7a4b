import GmlLayout.Token.Basic

/-!
Cutting one token off the front of a text. A line break is a token of its own and takes the blanks after
it as its indentation hint. Every character but a gap starts a token, so cutting never fails, and what is
cut off, put back in front of the rest, gives the text it was cut from.
-/

namespace GmlLayout

/-- A token's kind and its characters, with the characters after it. -/
structure Munch where
  kind : Kind
  text : List Char
  rest : List Char

namespace Munch

def isWordStart (c : Char) : Bool :=
  c.isAlpha || c == '_'

def isWordChar (c : Char) : Bool :=
  isWordStart c || c.isDigit

def isHexDigit (c : Char) : Bool :=
  c.isDigit || ('a' ≤ c && c ≤ 'f') || ('A' ≤ c && c ≤ 'F')

/-- Blanks that a line break counts towards the indentation of the line it opens. -/
def isIndent (c : Char) : Bool :=
  c == ' ' || c == '\t'

def isGap (c : Char) : Bool :=
  isIndent c || c == '\r'

/-- The longest run of characters in the class, with the rest. -/
def run (inClass : Char → Bool) (source : List Char) : List Char × List Char :=
  (source.takeWhile inClass, source.dropWhile inClass)

theorem run_append (inClass : Char → Bool) (source : List Char) :
    (run inClass source).1 ++ (run inClass source).2 = source :=
  List.takeWhile_append_dropWhile

def lineEnd (source : List Char) : List Char × List Char :=
  run (· != '\n') source

/-- Through the closing quote of a raw string, or to the end of the text. -/
def rawString (quote : Char) : List Char → List Char × List Char
  | [] => ([], [])
  | c :: source =>
    if c = quote then ([c], source)
    else (c :: (rawString quote source).1, (rawString quote source).2)

theorem rawString_append (quote : Char) (source : List Char) :
    (rawString quote source).1 ++ (rawString quote source).2 = source := by
  induction source with
  | nil => rfl
  | cons c source ih => unfold rawString; split <;> simp [ih]

/-- Through the closing quote, or up to the end of the line. A backslash takes an escapable character
with it, so an escaped quote does not close the string. -/
def quotedString (quote : Char) (escapable : Char → Bool) : List Char → List Char × List Char
  | [] => ([], [])
  | [c] => if c = '\n' then ([], [c]) else ([c], [])
  | c :: d :: source =>
    if c = '\n' then ([], c :: d :: source)
    else if c = quote then ([c], d :: source)
    else if c = '\\' ∧ escapable d then
      (c :: d :: (quotedString quote escapable source).1, (quotedString quote escapable source).2)
    else
      (c :: (quotedString quote escapable (d :: source)).1,
        (quotedString quote escapable (d :: source)).2)

theorem quotedString_append (quote : Char) (escapable : Char → Bool) (source : List Char) :
    (quotedString quote escapable source).1 ++ (quotedString quote escapable source).2 = source := by
  fun_induction quotedString quote escapable source <;> simp_all

/-- Through the end of a block comment whose opening has been read, or to the end of the text. -/
def blockComment : List Char → List Char × List Char
  | [] => ([], [])
  | '*' :: '/' :: source => (['*', '/'], source)
  | c :: source => (c :: (blockComment source).1, (blockComment source).2)

theorem blockComment_append (source : List Char) :
    (blockComment source).1 ++ (blockComment source).2 = source := by
  fun_induction blockComment source <;> simp_all

/-- To the end of the line, where a backslash right before the break continues on the next line. -/
def continuedLine : List Char → List Char × List Char
  | [] => ([], [])
  | '\\' :: '\n' :: source => ('\\' :: '\n' :: (continuedLine source).1, (continuedLine source).2)
  | c :: source =>
    if c = '\n' then ([], c :: source)
    else (c :: (continuedLine source).1, (continuedLine source).2)

theorem continuedLine_append (source : List Char) :
    (continuedLine source).1 ++ (continuedLine source).2 = source := by
  fun_induction continuedLine source <;> simp_all

/-- The token that consists of `opening` and what was split off the text after it. -/
def ofSplit (kind : Kind) (opening : List Char) (split : List Char × List Char) : Munch :=
  ⟨kind, opening ++ split.1, split.2⟩

theorem ofSplit_append {kind : Kind} {opening source : List Char} {split : List Char × List Char}
    (whole : split.1 ++ split.2 = source) :
    (ofSplit kind opening split).text ++ (ofSplit kind opening split).rest = opening ++ source := by
  simp [ofSplit, whole]

def newline (source : List Char) : Munch :=
  ofSplit .newline ['\n'] (run isIndent source)

theorem newline_append (source : List Char) :
    (newline source).text ++ (newline source).rest = '\n' :: source :=
  ofSplit_append (run_append isIndent source)

def wordKind (spelling : List Char) : Kind :=
  match Keyword.ofText? (String.ofList spelling) with
  | some keyword => .keyword keyword
  | none => .identifier

def word (first : Char) (source : List Char) : Munch :=
  ofSplit (wordKind (first :: (run isWordChar source).1)) [first] (run isWordChar source)

theorem word_append (first : Char) (source : List Char) :
    (word first source).text ++ (word first source).rest = first :: source :=
  ofSplit_append (run_append isWordChar source)

/-- A decimal number whose digits before the point have been read. -/
def decimal (whole : List Char) (source : List Char) : Munch :=
  match source with
  | '.' :: d :: fraction =>
    if d.isDigit then ofSplit .number (whole ++ ['.', d]) (run Char.isDigit fraction)
    else ⟨.numberEndDot, whole ++ ['.'], d :: fraction⟩
  | ['.'] => ⟨.numberEndDot, whole ++ ['.'], []⟩
  | rest => ⟨.number, whole, rest⟩

theorem decimal_append (whole source : List Char) :
    (decimal whole source).text ++ (decimal whole source).rest = whole ++ source := by
  unfold decimal
  split
  · split
    · rw [ofSplit_append (run_append _ _)]
      simp
    · simp
  · simp
  · rfl

/-- A number that starts with a digit: hexadecimal after `0x`, else decimal with an optional point. -/
def number (first : Char) (source : List Char) : Munch :=
  match first, source with
  | '0', 'x' :: digits => ofSplit .number ['0', 'x'] (run isHexDigit digits)
  | _, _ => decimal (first :: (run Char.isDigit source).1) (run Char.isDigit source).2

theorem number_append (first : Char) (source : List Char) :
    (number first source).text ++ (number first source).rest = first :: source := by
  unfold number
  split
  · exact ofSplit_append (run_append _ _)
  · rw [decimal_append, List.cons_append, run_append]

/-- The directive of the given name, if it is a known one; `rest` follows the name. -/
def directive? (name rest : List Char) : Option Munch :=
  if name = "macro".toList then some (ofSplit .macroLine ('#' :: name) (continuedLine rest))
  else if name = "region".toList then some (ofSplit .regionBegin ('#' :: name) (lineEnd rest))
  else if name = "endregion".toList then some (ofSplit .regionEnd ('#' :: name) (lineEnd rest))
  else if name = "define".toList then some ⟨.define, '#' :: name, rest⟩
  else none

theorem directive?_append {name rest : List Char} {munch : Munch}
    (known : directive? name rest = some munch) :
    munch.text ++ munch.rest = '#' :: name ++ rest := by
  unfold directive? at known
  split at known
  · cases known
    exact ofSplit_append (continuedLine_append rest)
  · split at known
    · cases known
      exact ofSplit_append (run_append _ rest)
    · split at known
      · cases known
        exact ofSplit_append (run_append _ rest)
      · split at known
        · cases known
          rfl
        · cases known

/-- A mark in front of a known name makes it a directive; otherwise the mark stands alone. -/
def hash (source : List Char) : Munch :=
  match directive? (run isWordChar source).1 (run isWordChar source).2 with
  | some directive => directive
  | none => ⟨.symbol .hash, ['#'], source⟩

theorem hash_append (source : List Char) :
    (hash source).text ++ (hash source).rest = '#' :: source := by
  unfold hash
  split
  · rename_i known
    rw [directive?_append known, List.cons_append, run_append]
  · rfl

/-- The symbol spelt exactly like `spelling`, if there is one. -/
def symbol? (spelling : List Char) : Option Symbol :=
  Symbol.all.find? fun symbol => symbol.text.toList = spelling

/-- A symbol of one character, or a character that starts nothing known. -/
def single (first : Char) (source : List Char) : Munch :=
  match symbol? [first] with
  | some symbol => ⟨.symbol symbol, [first], source⟩
  | none => ⟨.unidentified, [first], source⟩

theorem single_append (first : Char) (source : List Char) :
    (single first source).text ++ (single first source).rest = first :: source := by
  unfold single
  split <;> rfl

/-- A symbol of two characters wins over one of a single character. -/
def punctuation (first : Char) (source : List Char) : Munch :=
  match source with
  | [] => single first []
  | second :: rest =>
    match symbol? [first, second] with
    | some symbol => ⟨.symbol symbol, [first, second], rest⟩
    | none => single first (second :: rest)

theorem punctuation_append (first : Char) (source : List Char) :
    (punctuation first source).text ++ (punctuation first source).rest = first :: source := by
  unfold punctuation
  split
  · exact single_append first []
  · split
    · rfl
    · exact single_append first _

def slash (source : List Char) : Munch :=
  match source with
  | '/' :: _ => ofSplit .lineComment ['/'] (lineEnd source)
  | '*' :: body => ofSplit .blockComment ['/', '*'] (blockComment body)
  | _ => punctuation '/' source

theorem slash_append (source : List Char) :
    (slash source).text ++ (slash source).rest = '/' :: source := by
  unfold slash
  split
  · exact ofSplit_append (run_append _ _)
  · exact ofSplit_append (blockComment_append _)
  · exact punctuation_append '/' source

def atSign (source : List Char) : Munch :=
  match source with
  | '"' :: body => ofSplit .string ['@', '"'] (rawString '"' body)
  | '\'' :: body => ofSplit .string ['@', '\''] (rawString '\'' body)
  | _ => ⟨.unidentified, ['@'], source⟩

theorem atSign_append (source : List Char) :
    (atSign source).text ++ (atSign source).rest = '@' :: source := by
  unfold atSign
  split
  · exact ofSplit_append (rawString_append _ _)
  · exact ofSplit_append (rawString_append _ _)
  · rfl

def dot (source : List Char) : Munch :=
  match source with
  | d :: _ =>
    if d.isDigit then ofSplit .numberStartDot ['.'] (run Char.isDigit source)
    else punctuation '.' source
  | [] => punctuation '.' []

theorem dot_append (source : List Char) :
    (dot source).text ++ (dot source).rest = '.' :: source := by
  unfold dot
  split
  · split
    · exact ofSplit_append (run_append _ _)
    · exact punctuation_append '.' _
  · exact punctuation_append '.' []

/-- Cuts the token that starts with `first`, which is not a gap character. -/
def read (first : Char) (source : List Char) : Munch :=
  if isWordStart first then word first source
  else if first.isDigit then number first source
  else match first with
    | '\n' => newline source
    | '#' => hash source
    | '@' => atSign source
    | '"' => ofSplit .string ['"'] (quotedString '"' (fun c => c == '"' || c == '\\') source)
    | '\'' => ofSplit .string ['\''] (quotedString '\'' (· == '\'') source)
    | '.' => dot source
    | '$' => ofSplit .number ['$'] (run isHexDigit source)
    | '/' => slash source
    | _ => punctuation first source

theorem read_append (first : Char) (source : List Char) :
    (read first source).text ++ (read first source).rest = first :: source := by
  unfold read
  split
  · exact word_append first source
  · split
    · exact number_append first source
    · split
      · exact newline_append source
      · exact hash_append source
      · exact atSign_append source
      · exact ofSplit_append (quotedString_append _ _ _)
      · exact ofSplit_append (quotedString_append _ _ _)
      · exact dot_append source
      · exact ofSplit_append (run_append _ _)
      · exact slash_append source
      · exact punctuation_append first source

/-- Four spaces or one tab are one level of indentation. -/
def indentLevels (blanks : List Char) : Nat :=
  (blanks.count ' ' + 4 * blanks.count '\t') / 4

def payload (munch : Munch) : Payload :=
  if munch.kind.carriesText then .text (String.ofList munch.text)
  else if munch.kind = .newline then .hint (indentLevels (munch.text.drop 1))
  else .none

end Munch

end GmlLayout
