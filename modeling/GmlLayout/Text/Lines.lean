/-!
Lines of a text as a reader sees them, and line breaks brought to one form.
-/

namespace GmlLayout.Text

/-- Characters that end a line on a screen: line feed, carriage return, vertical tab, form feed, the
three information separators above the unit separator, next line, and the two Unicode separators. -/
def isLineBreak (c : Char) : Bool :=
  c == '\n' || c == '\r' || c == '\x0b' || c == '\x0c' || c == '\x1c' || c == '\x1d' || c == '\x1e'
    || c == '\u0085' || c == '\u2028' || c == '\u2029'

/-- The lines of `text`, where `current` holds the line read so far, last character first. A carriage
return and a line feed together are one break, and a break at the very end opens no further line. -/
def linesFrom (current : List Char) : List Char → List (List Char)
  | [] => if current.isEmpty then [] else [current.reverse]
  | '\r' :: '\n' :: rest => current.reverse :: linesFrom [] rest
  | c :: rest =>
    if isLineBreak c then current.reverse :: linesFrom [] rest else linesFrom (c :: current) rest

def lines (text : String) : List String :=
  (linesFrom [] text.toList).map String.ofList

/-- Every carriage return, alone or before a line feed, becomes a line feed. -/
def unifyBreaks : List Char → List Char
  | [] => []
  | '\r' :: '\n' :: rest => '\n' :: unifyBreaks rest
  | c :: rest => (if c = '\r' then '\n' else c) :: unifyBreaks rest

theorem not_mem_unifyBreaks (text : List Char) : '\r' ∉ unifyBreaks text := by
  fun_induction unifyBreaks text with
  | case1 => simp
  | case2 rest ih => simp [ih]
  | case3 c rest _ ih => grind

theorem unifyBreaks_of_unreturned {text : List Char} (none : '\r' ∉ text) : unifyBreaks text = text := by
  fun_induction unifyBreaks text with
  | case1 => rfl
  | case2 rest ih => simp at none
  | case3 c rest _ ih =>
    rw [List.mem_cons, not_or] at none
    rw [if_neg (Ne.symm none.1), ih none.2]

end GmlLayout.Text
