/-!
How brackets nest in a run of texts, and where semicolons stand among them. The texts are read from left
to right with a stack of open brackets. A semicolon has its place in a block, in the header of a `for`
loop or outside of all brackets, and it does not come between a function's list of parameters and its
body. It changes nothing for what follows, so texts stay well nested when semicolons are left out.
-/

namespace GmlLayout

inductive Bracket where
  | group
  /-- The header of a `for` loop. -/
  | header
  /-- The parameters of a function. -/
  | parameters
  | index
  | block
deriving DecidableEq, Repr

inductive Lead where
  | none
  /-- The word `for`, in front of its header. -/
  | loop
  /-- The word `function`, in front of its parameters. -/
  | function
  /-- A closed list of parameters, in front of the body. -/
  | signature
deriving DecidableEq, Repr

inductive NestMark where
  | loop
  | function
  | openRound
  | closeRound
  | openSquare
  | closeSquare
  | openCurly
  | closeCurly
  | semicolon
deriving DecidableEq, Repr

/-- The mark that a text is. The indexers open a square bracket as well. -/
def NestMark.ofText? (text : String) : Option NestMark :=
  match text with
  | "for" => some .loop
  | "function" => some .function
  | "(" => some .openRound
  | ")" => some .closeRound
  | "[" | "[|" | "[?" | "[#" | "[@" => some .openSquare
  | "]" => some .closeSquare
  | "\x7b" => some .openCurly
  | "\x7d" => some .closeCurly
  | ";" => some .semicolon
  | _ => none

def isNestMark (text : String) : Bool :=
  (NestMark.ofText? text).isSome

def isBracketMark (text : String) : Bool :=
  isNestMark text && text ≠ ";"

def Lead.round : Lead → Bracket
  | .loop => .header
  | .function => .parameters
  | .none | .signature => .group

/-- What has been read so far: the brackets that are open, the innermost first. -/
structure Nest where
  brackets : List Bracket := []
  lead : Lead := .none
deriving DecidableEq, Repr

namespace Nest

def houses (nest : Nest) : Bool :=
  nest.lead = .none && nest.brackets.head?.all fun bracket => bracket = .header || bracket = .block

def enter (nest : Nest) (bracket : Bracket) : Nest where
  brackets := bracket :: nest.brackets

/-- Closes the innermost bracket if it is one of these; behind the parameters the body is due. -/
def leave (nest : Nest) (these : List Bracket) : Option Nest :=
  match nest.brackets with
  | [] => none
  | bracket :: outer =>
    if bracket ∈ these then
      some { brackets := outer, lead := if bracket = .parameters then .signature else .none }
    else none

def read (nest : Nest) : NestMark → Option Nest
  | .loop => some { nest with lead := .loop }
  | .function => some { nest with lead := .function }
  | .openRound => some (nest.enter nest.lead.round)
  | .closeRound => nest.leave [.group, .header, .parameters]
  | .openSquare => some (nest.enter .index)
  | .closeSquare => nest.leave [.index]
  | .openCurly => some (nest.enter .block)
  | .closeCurly => nest.leave [.block]
  | .semicolon => if nest.houses then some nest else none

def step (nest : Nest) (text : String) : Option Nest :=
  match NestMark.ofText? text with
  | none => some nest
  | some mark => nest.read mark

def run (nest : Nest) (texts : List String) : Option Nest :=
  texts.foldlM step nest

variable {nest last : Nest} {text : String} {texts : List String}

theorem run_cons : run nest (text :: texts) = (nest.step text).bind fun next => next.run texts :=
  List.foldlM_cons

theorem step_of_unmarked (unmarked : isNestMark text = false) (nest : Nest) : nest.step text = some nest := by
  rw [isNestMark, Option.isSome_eq_false_iff, Option.isNone_iff_eq_none] at unmarked
  rw [step, unmarked]

theorem step_of_unbracketed {next : Nest} (unbracketed : isBracketMark text = false)
    (stepped : nest.step text = some next) : next = nest := by
  by_cases isSemicolon : text = ";"
  · have semicolon : nest.step ";" = if nest.houses then some nest else none := rfl
    rw [isSemicolon, semicolon] at stepped
    split at stepped
    · exact (Option.some.inj stepped).symm
    · cases stepped
  · have unmarked : isNestMark text = false := by simpa [isBracketMark, isSemicolon] using unbracketed
    rw [step_of_unmarked unmarked] at stepped
    exact (Option.some.inj stepped).symm

theorem run_filter (nest : Nest) (texts : List String) :
    nest.run (texts.filter isNestMark) = nest.run texts := by
  induction texts generalizing nest with
  | nil => rfl
  | cons text texts ih =>
    rw [List.filter_cons]
    split
    · rw [run_cons, run_cons]
      exact congrArg _ (funext ih)
    · rename_i unmarked
      rw [run_cons, step_of_unmarked (eq_false_of_ne_true unmarked)]
      exact ih nest

theorem run_of_sublist {fewer : List String} (thinned : fewer.Sublist texts)
    (brackets : fewer.filter isBracketMark = texts.filter isBracketMark) (ran : nest.run texts = some last) :
    nest.run fewer = some last := by
  induction thinned generalizing nest with
  | slnil => exact ran
  | @cons fewer texts text thinned ih =>
    rw [run_cons, Option.bind_eq_some_iff] at ran
    obtain ⟨next, stepped, rest⟩ := ran
    rw [List.filter_cons] at brackets
    split at brackets
    · have enough := (thinned.filter isBracketMark).length_le
      rw [brackets, List.length_cons] at enough
      omega
    · rename_i unbracketed
      rw [step_of_unbracketed (eq_false_of_ne_true unbracketed) stepped] at rest
      exact ih brackets rest
  | @cons_cons fewer texts text thinned ih =>
    rw [run_cons, Option.bind_eq_some_iff] at ran ⊢
    obtain ⟨next, stepped, rest⟩ := ran
    have others : fewer.filter isBracketMark = texts.filter isBracketMark := by
      rw [List.filter_cons, List.filter_cons] at brackets
      split at brackets
      · exact (List.cons.inj brackets).2
      · exact brackets
    exact ⟨next, stepped, ih others rest⟩

end Nest

def wellNested (texts : List String) : Bool :=
  (Nest.run {} texts).any (·.brackets.isEmpty)

theorem wellNested_filter (texts : List String) : wellNested (texts.filter isNestMark) = wellNested texts := by
  rw [wellNested, Nest.run_filter, wellNested]

theorem wellNested_of_sublist {fewer texts : List String} (thinned : fewer.Sublist texts)
    (brackets : fewer.filter isBracketMark = texts.filter isBracketMark) (nested : wellNested texts = true) :
    wellNested fewer = true := by
  rw [wellNested, Option.any_eq_true] at nested ⊢
  obtain ⟨last, ran, closed⟩ := nested
  exact ⟨last, Nest.run_of_sublist thinned brackets ran, closed⟩

end GmlLayout
