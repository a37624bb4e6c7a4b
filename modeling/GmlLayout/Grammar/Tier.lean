import GmlLayout.Token.Kind

/-!
Operators by binding strength.
-/

namespace GmlLayout

/-- How operators of one strength group when they follow each other. -/
inductive Side where
  | left
  | right
deriving DecidableEq, Repr

structure Tier where
  joins : Kind → Bool
  side : Side

namespace Tier

def disjunction : Tier where
  side := .right
  joins
    | .symbol .doubleBar | .keyword .orWord => true
    | _ => false

def conjunction : Tier where
  side := .right
  joins
    | .symbol .doubleAmpersand | .keyword .andWord => true
    | _ => false

def exclusion : Tier where
  side := .right
  joins
    | .symbol .doubleCaret | .keyword .xorWord => true
    | _ => false

def equality : Tier where
  side := .left
  joins
    | .symbol .equalEqual | .symbol .bangEqual | .symbol .lessGreater => true
    | _ => false

def comparison : Tier where
  side := .left
  joins
    | .symbol .greater | .symbol .greaterEqual | .symbol .less | .symbol .lessEqual => true
    | _ => false

def bitwise : Tier where
  side := .left
  joins
    | .symbol .ampersand | .symbol .bar | .symbol .caret => true
    | _ => false

def shift : Tier where
  side := .left
  joins
    | .symbol .shiftLeft | .symbol .shiftRight => true
    | _ => false

def additive : Tier where
  side := .left
  joins
    | .symbol .minus | .symbol .plus => true
    | _ => false

def multiplicative : Tier where
  side := .left
  joins
    | .symbol .slash | .symbol .star | .symbol .percent => true
    | .keyword .modWord | .keyword .divWord => true
    | _ => false

def all : List Tier :=
  [disjunction, conjunction, exclusion, equality, comparison, bitwise, shift, additive,
   multiplicative]

end Tier

namespace Kind

def isUnary : Kind → Bool
  | .symbol .bang | .symbol .minus | .symbol .plus | .symbol .tilde => true
  | .symbol .increment | .symbol .decrement => true
  | .keyword .notWord => true
  | _ => false

def isStep : Kind → Bool
  | .symbol .increment | .symbol .decrement => true
  | _ => false

def isAssignment : Kind → Bool
  | .symbol .equal | .symbol .plusEquals | .symbol .minusEquals | .symbol .starEquals => true
  | .symbol .slashEquals | .symbol .caretEquals | .symbol .barEquals => true
  | .symbol .ampersandEquals | .symbol .percentEquals => true
  | _ => false

def isAccessor : Kind → Bool
  | .symbol .leftBracket | .symbol .listIndexer | .symbol .mapIndexer => true
  | .symbol .gridIndexer | .symbol .arrayIndexer => true
  | _ => false

end Kind

end GmlLayout
