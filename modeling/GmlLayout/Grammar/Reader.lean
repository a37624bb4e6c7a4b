import GmlLayout.Grammar.Error
import GmlLayout.Tree.Stmt

/-!
The state of a parse and its few primitive steps. Only `advance` and `slot` consume tokens.
-/

namespace GmlLayout

/-- Where a parse stands. After a line break or a comment was read as an expression, `canPair` is off
until that expression ends, so that the next line is not glued onto it. `leftovers` are statements found
inside another one, to be placed after it. -/
structure Reader where
  rest : List Token
  canPair : Bool := true
  allowUnidentified : Bool := false
  leftovers : List Stmt := []

abbrev Parse := EStateM ParseError Reader

namespace Parse

def peek : Parse (Option Kind) := do
  return (← get).rest.head?.map Token.kind

def sees (accepted : Kind → Bool) : Parse Bool := do
  return (← peek).any accepted

/-- As `sees`, but never while pairing is off. -/
def check (accepted : Kind → Bool) : Parse Bool := do
  if (← get).canPair then sees accepted else return false

def advance : Parse Token := do
  match (← get).rest with
  | [] => throw .unexpectedEnd
  | token :: rest =>
    modify fun reader => { reader with rest := rest }
    return token

/-- Takes the next token if it is of the given kind and pairing is on, and says whether it did. -/
def accept (kind : Kind) : Parse Bool := do
  if ← check (· = kind) then
    let _ ← advance
    return true
  else
    return false

def slot : Parse Trivia :=
  modifyGet fun reader =>
    (reader.rest.takeWhile (·.kind.isTrivia),
      { reader with rest := reader.rest.dropWhile (·.kind.isTrivia) })

def setCanPair (canPair : Bool) : Parse Unit :=
  modify fun reader => { reader with canPair := canPair }

def setAllowUnidentified (allowed : Bool) : Parse Unit :=
  modify fun reader => { reader with allowUnidentified := allowed }

def postpone (stmt : Stmt) : Parse Unit :=
  modify fun reader => { reader with leftovers := reader.leftovers ++ [stmt] }

def takeLeftovers : Parse (List Stmt) :=
  modifyGet fun reader => (reader.leftovers, { reader with leftovers := [] })

end Parse

end GmlLayout
