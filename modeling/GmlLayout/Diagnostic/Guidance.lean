/-!
Messages that say what happened and, where that is known, why, how to mend it, and what a good input
looks like.
-/

namespace GmlLayout

structure Guidance where
  what : String
  why : Option String := none
  fix : Option String := none
  sample : Option String := none

namespace Guidance

/-- One labelled line; a part that is absent or empty has none. -/
def part (label : String) : Option String → List String
  | none => []
  | some content => if content.isEmpty then [] else [label ++ content]

def lines (guidance : Guidance) : List String :=
  ("What happened: " ++ guidance.what) ::
    (part "Why: " guidance.why ++ part "Fix: " guidance.fix ++ part "Example: " guidance.sample)

def text (guidance : Guidance) : String :=
  "\n".intercalate guidance.lines

end Guidance

end GmlLayout
