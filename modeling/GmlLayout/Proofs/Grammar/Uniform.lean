import GmlLayout.Proofs.Grammar.Yield
import GmlLayout.Proofs.Tree.MapTokens

/-!
The grammar looks at the kinds of tokens and at nothing else. A replacement of tokens that keeps their
kinds may be applied before a parse or to its result: the two agree, in success as in failure. This is
stated of parsers step by step, so that it composes along a parser as the parser itself does.
-/

namespace GmlLayout

section

variable (change : Token → Token)

def Reader.mapTokens (reader : Reader) : Reader where
  rest := reader.rest.map change
  canPair := reader.canPair
  allowUnidentified := reader.allowUnidentified
  leftovers := Stmt.mapList change reader.leftovers

def ParseError.mapTokens : ParseError → ParseError
  | .unexpectedToken token => .unexpectedToken (change token)
  | .unknownInSwitch token => .unknownInSwitch (change token)
  | .unexpectedEnd => .unexpectedEnd

/-- The outcome of a parse after a replacement of tokens; `convert` is what it does to the value. -/
def mapOutcome {α β : Type} (convert : α → β) :
    EStateM.Result ParseError Reader α → EStateM.Result ParseError Reader β
  | .ok value stop => .ok (convert value) (stop.mapTokens change)
  | .error cause stop => .error (cause.mapTokens change) (stop.mapTokens change)

/-- From replaced tokens, `other` comes to what `parser` comes to, with its tokens replaced. -/
def Uniform {α β : Type} (convert : α → β) (parser : Parse α) (other : Parse β) : Prop :=
  ∀ start, other (start.mapTokens change) = mapOutcome change convert (parser start)

end

variable {change : Token → Token}

namespace Uniform

variable {α β γ δ : Type}

theorem bind {convert : α → β} {further : γ → δ} {parser : Parse α} {other : Parse β}
    {next : α → Parse γ} {otherNext : β → Parse δ} (front : Uniform change convert parser other)
    (back : ∀ value, Uniform change further (next value) (otherNext (convert value))) :
    Uniform change further (parser >>= next) (other >>= otherNext) := by
  intro start
  change EStateM.bind other otherNext _ = mapOutcome change further (EStateM.bind parser next start)
  unfold EStateM.bind
  rw [front start]
  cases parser start with
  | ok value stop => exact back value stop
  | error cause stop => rfl

theorem pure {convert : α → β} {value : α} {other : β} (same : other = convert value) :
    Uniform change convert (Pure.pure value) (Pure.pure other) := by
  subst same
  intro start
  rfl

theorem throw {convert : α → β} {cause other : ParseError} (same : other = cause.mapTokens change) :
    Uniform change convert (MonadExcept.throw cause) (MonadExcept.throw other) := by
  subst same
  intro start
  rfl

theorem ifCanPair {convert : α → β} {first second : Parse α} {otherFirst otherSecond : Parse β}
    (yes : Uniform change convert first otherFirst) (no : Uniform change convert second otherSecond) :
    Uniform change convert (MonadState.get >>= fun reader => if reader.canPair then first else second)
      (MonadState.get >>= fun reader => if reader.canPair then otherFirst else otherSecond) := by
  intro start
  change (if start.canPair then otherFirst else otherSecond) (start.mapTokens change) =
    mapOutcome change convert ((if start.canPair then first else second) start)
  split
  · exact yes start
  · exact no start

theorem ite {convert : α → β} {test : Prop} [Decidable test] {first second : Parse α}
    {otherFirst otherSecond : Parse β} (yes : Uniform change convert first otherFirst)
    (no : Uniform change convert second otherSecond) :
    Uniform change convert (if test then first else second)
      (if test then otherFirst else otherSecond) := by
  split
  · exact yes
  · exact no

theorem get : Uniform change (Reader.mapTokens change) MonadState.get MonadState.get :=
  fun _ => rfl

theorem setCanPair {canPair : Bool} :
    Uniform change id (Parse.setCanPair canPair) (Parse.setCanPair canPair) :=
  fun _ => rfl

theorem setAllowUnidentified {allowed : Bool} :
    Uniform change id (Parse.setAllowUnidentified allowed) (Parse.setAllowUnidentified allowed) :=
  fun _ => rfl

theorem takeLeftovers :
    Uniform change (Stmt.mapList change) Parse.takeLeftovers Parse.takeLeftovers :=
  fun _ => rfl

theorem postpone {stmt : Stmt} :
    Uniform change id (Parse.postpone stmt) (Parse.postpone (stmt.mapTokens change)) := by
  intro start
  have appended : Stmt.mapList change (start.leftovers ++ [stmt]) =
      Stmt.mapList change start.leftovers ++ [stmt.mapTokens change] := by
    simp [Stmt.mapList_eq_map]
  change EStateM.Result.ok () _ = EStateM.Result.ok () _
  simp only [Reader.mapTokens, appended]

theorem advance : Uniform change change Parse.advance Parse.advance := by
  intro start
  obtain ⟨rest, canPair, allowUnidentified, leftovers⟩ := start
  cases rest <;> rfl

section

variable (keepsKind : ∀ token, (change token).kind = token.kind)

include keepsKind

theorem headKind (start : Reader) :
    (start.mapTokens change).rest.head?.map Token.kind = start.rest.head?.map Token.kind := by
  cases shape : start.rest with
  | nil => simp [Reader.mapTokens, shape]
  | cons token rest => simp [Reader.mapTokens, shape, keepsKind]

theorem peek : Uniform change id Parse.peek Parse.peek := by
  intro start
  change EStateM.Result.ok _ _ = EStateM.Result.ok _ _
  rw [headKind keepsKind]
  rfl

theorem sees {accepted : Kind → Bool} :
    Uniform change id (Parse.sees accepted) (Parse.sees accepted) :=
  (peek keepsKind).bind fun _ => pure rfl

theorem check {accepted : Kind → Bool} :
    Uniform change id (Parse.check accepted) (Parse.check accepted) :=
  ifCanPair (sees keepsKind) (pure rfl)

theorem accept {kind : Kind} : Uniform change id (Parse.accept kind) (Parse.accept kind) :=
  (check keepsKind).bind fun _ => ite (advance.bind fun _ => pure rfl) (pure rfl)

theorem slot : Uniform change (List.map change) Parse.slot Parse.slot := by
  intro start
  have same : (fun token : Token => (change token).kind.isTrivia) = fun token => token.kind.isTrivia :=
    funext fun token => by rw [keepsKind]
  change EStateM.Result.ok _ _ = EStateM.Result.ok _ _
  simp only [Reader.mapTokens, List.takeWhile_map, List.dropWhile_map, Function.comp_def, same]

end

end Uniform

end GmlLayout
