import GmlLayout.Proofs.Grammar.Yield
import GmlLayout.Proofs.Tree.Woven

/-!
Where a parse gets to. While pairing is on, a parser that stands in front of some tokens does the same as
a later parser that stands in front of the tokens that are then left. Such steps compose as parsers do,
which makes it possible to follow a parse from token to token.
-/

namespace GmlLayout

/-- A reader in front of the tokens, with pairing on and nothing postponed. -/
def Reader.before (rest : List Token) (allowed : Bool) : Reader :=
  ⟨rest, true, allowed, []⟩

def Ends (takes : Kind → Bool) (rest : List Token) : Prop :=
  ∀ token ∈ rest.head?, takes token.kind = false

namespace Ends

variable {takes : Kind → Bool} {token : Token} {rest : List Token}

theorem nil : Ends takes [] :=
  fun _ member => nomatch member

theorem cons (other : takes token.kind = false) : Ends takes (token :: rest) := by
  intro found member
  cases member
  exact other

theorem weaken {fewer : Kind → Bool} (ends : Ends takes rest)
    (within : ∀ kind, takes kind = false → fewer kind = false) : Ends fewer rest :=
  fun token member => within token.kind (ends token member)

theorem any_head? (ends : Ends takes rest) : (rest.head?.map Token.kind).any takes = false := by
  cases rest with
  | nil => rfl
  | cons token rest => exact ends token rfl

theorem or_left {other : Kind → Bool} (ends : Ends (fun kind => takes kind || other kind) rest) :
    Ends takes rest :=
  ends.weaken fun _ neither => (Bool.or_eq_false_iff.mp neither).1

theorem or_right {other : Kind → Bool} (ends : Ends (fun kind => takes kind || other kind) rest) :
    Ends other rest :=
  ends.weaken fun _ neither => (Bool.or_eq_false_iff.mp neither).2

end Ends

/-- In front of the first tokens, `parser` does what `later` does in front of the second ones. -/
def Leads {α : Type} (parser later : Parse α) (start stop : List Token) : Prop :=
  ∀ allowed, ∃ allowedLater, parser (.before start allowed) = later (.before stop allowedLater)

namespace Leads

variable {α β : Type} {start middle stop rest : List Token}

theorem refl {parser : Parse α} : Leads parser parser rest rest :=
  fun allowed => ⟨allowed, rfl⟩

theorem trans {first second third : Parse α} (front : Leads first second start middle)
    (back : Leads second third middle stop) : Leads first third start stop := by
  intro allowed
  obtain ⟨between, reached⟩ := front allowed
  obtain ⟨later, further⟩ := back between
  exact ⟨later, reached.trans further⟩

theorem bind {parser : Parse α} {next : α → Parse β} {value : α} {later : Parse β}
    (front : Leads parser (pure value) start middle) (back : Leads (next value) later middle stop) :
    Leads (parser >>= next) later start stop := by
  intro allowed
  obtain ⟨between, reached⟩ := front allowed
  obtain ⟨later, further⟩ := back between
  exact ⟨later, (bind_of_ok reached).trans further⟩

theorem advance (token : Token) : Leads Parse.advance (pure token) (token :: rest) rest :=
  fun allowed => ⟨allowed, rfl⟩

theorem setAllowUnidentified {allowed : Bool} :
    Leads (Parse.setAllowUnidentified allowed) (pure ()) rest rest :=
  fun _ => ⟨allowed, rfl⟩

theorem setCanPair : Leads (Parse.setCanPair true) (pure ()) rest rest :=
  fun allowed => ⟨allowed, rfl⟩

theorem slot (ends : Ends Kind.isTrivia rest) : Leads Parse.slot (pure []) rest rest := by
  intro allowed
  refine ⟨allowed, ?_⟩
  cases rest with
  | nil => rfl
  | cons token rest =>
    have visible : token.kind.isTrivia = false := ends token rfl
    show EStateM.Result.ok _ _ = EStateM.Result.ok _ _
    simp [Reader.before, visible]

theorem seesTrue {accepted : Kind → Bool} {token : Token} (found : accepted token.kind = true) :
    Leads (Parse.sees accepted) (pure true) (token :: rest) (token :: rest) := by
  refine fun allowed => ⟨allowed, ?_⟩
  show EStateM.Result.ok (accepted token.kind) _ = _
  rw [found]
  rfl

theorem seesFalse {accepted : Kind → Bool} (ends : Ends accepted rest) :
    Leads (Parse.sees accepted) (pure false) rest rest := by
  refine fun allowed => ⟨allowed, ?_⟩
  show EStateM.Result.ok ((rest.head?.map Token.kind).any accepted) _ = _
  rw [ends.any_head?]
  rfl

theorem checkTrue {accepted : Kind → Bool} {token : Token} (found : accepted token.kind = true) :
    Leads (Parse.check accepted) (pure true) (token :: rest) (token :: rest) :=
  seesTrue found

theorem checkFalse {accepted : Kind → Bool} (ends : Ends accepted rest) :
    Leads (Parse.check accepted) (pure false) rest rest :=
  seesFalse ends

theorem acceptMark {symbol : Symbol} :
    Leads (Parse.accept (.symbol symbol)) (pure true) (.ofKind (.symbol symbol) :: rest) rest :=
  (checkTrue (decide_eq_true rfl)).bind ((advance _).bind refl)

theorem acceptFalse {kind : Kind} (ends : Ends (· = kind) rest) :
    Leads (Parse.accept kind) (pure false) rest rest :=
  (checkFalse ends).bind refl

end Leads

end GmlLayout
