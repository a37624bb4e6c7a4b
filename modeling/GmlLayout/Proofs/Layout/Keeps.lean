import GmlLayout.Proofs.Layout.Ink

/-!
Layouts that keep what holds of a page, or bring one property to another, put together from their steps.
-/

namespace GmlLayout.Print

variable {α β : Type}

def Keeps (holds : Page → Prop) (action : Print α) : Prop :=
  ∀ page, holds page → holds (after action page)

namespace Keeps

variable {holds : Page → Prop} {action : Print α}

theorem bind {next : α → Print β} (first : Keeps holds action)
    (second : ∀ value, Keeps holds (next value)) : Keeps holds (action >>= next) :=
  fun page here => second _ _ (first page here)

theorem pure {value : α} : Keeps holds (Pure.pure value) :=
  fun _ here => here

theorem ite {test : Prop} [Decidable test] {other : Print α} (yes : test → Keeps holds action)
    (no : ¬test → Keeps holds other) : Keeps holds (if test then action else other) := by
  split
  · exact yes ‹_›
  · exact no ‹_›

theorem optional {test : Prop} [Decidable test] {step : Print Unit} {rest : Unit → Print α}
    (first : test → Keeps holds step) (further : Keeps holds (rest ())) :
    Keeps holds (if test then step >>= rest else rest ()) :=
  ite (fun taken => (first taken).bind fun _ => further) fun _ => further

theorem read {next : Page → Print α} (each : ∀ page, Keeps holds (next page)) :
    Keeps holds (MonadState.get >>= next) :=
  fun page here => each page page here

theorem buffer {holds : Buffer → Prop} (same : ∀ page, (after action page).buffer = page.buffer) :
    Keeps (fun page => holds page.buffer) action := by
  intro page here
  rw [same]
  exact here

end Keeps

def Brings (pre : Page → Prop) (action : Print α) (post : α → Page → Prop) : Prop :=
  ∀ page, pre page → post (given action page) (after action page)

namespace Brings

variable {pre : Page → Prop} {action : Print α} {post : α → Page → Prop}

theorem before {pre' : Page → Prop} (brings : Brings pre action post)
    (enough : ∀ page, pre' page → pre page) : Brings pre' action post :=
  fun page holds => brings page (enough page holds)

theorem behind {post' : α → Page → Prop} (brings : Brings pre action post)
    (enough : ∀ value page, post value page → post' value page) : Brings pre action post' :=
  fun page holds => enough _ _ (brings page holds)

theorem bind {between : α → Page → Prop} {next : α → Print β} {post : β → Page → Prop}
    (first : Brings pre action between) (second : ∀ value, Brings (between value) (next value) post) :
    Brings pre (action >>= next) post :=
  fun page holds => second _ _ (first page holds)

theorem pure {value : α} (ends : ∀ page, pre page → post value page) : Brings pre (Pure.pure value) post :=
  ends

theorem ite {test : Prop} [Decidable test] {other : Print α} (yes : test → Brings pre action post)
    (no : ¬test → Brings pre other post) : Brings pre (if test then action else other) post := by
  split
  · exact yes ‹_›
  · exact no ‹_›

theorem optional (middle : Page → Prop) {test : Prop} [Decidable test] {step : Print Unit}
    {rest : Unit → Print α} (first : test → Brings pre step fun _ => middle)
    (skip : ¬test → ∀ page, pre page → middle page) (further : Brings middle (rest ()) post) :
    Brings pre (if test then step >>= rest else rest ()) post :=
  ite (fun taken => (first taken).bind fun _ => further) fun passed page holds =>
    further page (skip passed page holds)

theorem get {next : Page → Print α}
    (each : ∀ page, Brings (fun here => here = page ∧ pre page) (next page) post) :
    Brings pre (MonadState.get >>= next) post :=
  fun page holds => each page page ⟨rfl, holds⟩

theorem read {next : Page → Print α} (each : ∀ page, Brings pre (next page) post) :
    Brings pre (MonadState.get >>= next) post :=
  fun page holds => each page page holds

end Brings

def exprOr (missing : Print Unit) : Option Expr → Print Unit
  | none => missing
  | some value => expr value

def closeFor (afterIncrement : Trivia) (moved : Bool) (afterClose : Trivia) : Print Unit := do
  let broken ← trivia afterIncrement {}
  if !broken then
    dropSpace
  if moved then
    newline .left
  write ")" true
  modify Page.leaveFor
  slot afterClose {}

theorem forHeader_eq (afterStart : Trivia) (condition : Option Expr) (afterCondition : Trivia)
    (increment : Option Expr) (afterIncrement : Trivia) (moved : Bool) (afterClose : Trivia) :
    forHeader afterStart condition afterCondition increment afterIncrement moved afterClose = (do
      slot afterStart {}
      exprOr (pure ()) condition
      dropSpace
      write ";" true
      slot afterCondition {}
      exprOr dropSpace increment
      closeFor afterIncrement moved afterClose) := by
  cases condition <;> cases increment <;> rfl

end GmlLayout.Print
