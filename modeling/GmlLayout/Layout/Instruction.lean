/-!
What a construct asks of the layout of its parts.
-/

namespace GmlLayout

inductive Move where
  | right
  | stay
  | left
deriving DecidableEq, Repr

/-- What becomes of the line breaks that open a slot of trivia: all are kept, a run of them counts as
one, or a run of them is dropped. -/
inductive Leading where
  | all
  | one
  | none
deriving DecidableEq, Repr

structure BlockRequest where
  noNewlineAfter : Bool := false
  mustIndent : Bool := false
deriving DecidableEq, Repr

/-- A request to the next grouping, about the trivia after its closing parenthesis. -/
structure GroupRequest where
  move : Option Move := none
  leading : Option Leading := none
  respect : Option Bool := none
deriving DecidableEq, Repr

/-- How one slot of trivia is laid out. With `respect`, line breaks are written even if the slot has no
comment, and they may take over the author's indentation; with `trailing`, a comment ends its statement
without a semicolon. -/
structure Instruction where
  move : Move := .stay
  leading : Leading := .one
  respect : Bool := false
  trailing : Bool := false
deriving DecidableEq, Repr

namespace Instruction

def respecting (move : Move) (leading : Leading) : Instruction where
  move := move
  leading := leading
  respect := true

def afterExpression : Instruction where
  leading := .all
  respect := true
  trailing := true

end Instruction

namespace GroupRequest

def instruction (request : GroupRequest) : Instruction where
  move := request.move.getD .stay
  leading := request.leading.getD .all
  respect := request.respect.getD false

end GroupRequest

end GmlLayout
