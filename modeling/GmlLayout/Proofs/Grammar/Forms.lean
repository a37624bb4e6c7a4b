import GmlLayout.Proofs.Grammar.Yield
import GmlLayout.Proofs.Tree.Formed

/-!
What a parser forms. From a state whose tokens are drawn from given ones, every success leads to such a
state again, and to a value of which something is known. Like the parser itself, the judgement goes from
step to step, and a step knows the token that the test before it has seen.
-/

namespace GmlLayout

variable (drawn : Token → Prop)

/-- All tokens to come are drawn from the given ones, and so are those of the statements kept for later. -/
def Reader.Formed (reader : Reader) : Prop :=
  (∀ token ∈ reader.rest, drawn token) ∧ Stmt.ListFormed drawn reader.leftovers

/-- From `start`, a success of the parser gives a value, and a state, that are `good`. -/
def Forms {α : Type} (parser : Parse α) (start : Reader) (good : α → Reader → Prop) : Prop :=
  start.Formed drawn → ∀ value stop, parser start = .ok value stop →
    stop.Formed drawn ∧ good value stop

variable {drawn}

namespace Forms

variable {α β : Type} {start : Reader}

theorem bind {parser : Parse α} {next : α → Parse β} {middle : α → Reader → Prop}
    {good : β → Reader → Prop} (front : Forms drawn parser start middle)
    (back : ∀ value stop, middle value stop → Forms drawn (next value) stop good) :
    Forms drawn (parser >>= next) start good := by
  intro formed value stop done
  obtain ⟨first, between, ran, rest⟩ := bind_eq_ok done
  obtain ⟨formed, known⟩ := front formed first between ran
  exact back first between known formed value stop rest

theorem weaken {parser : Parse α} {good better : α → Reader → Prop}
    (forms : Forms drawn parser start better) (implies : ∀ value stop, better value stop → good value stop) :
    Forms drawn parser start good := by
  intro formed value stop done
  obtain ⟨formed, known⟩ := forms formed value stop done
  exact ⟨formed, implies value stop known⟩

theorem pure {value : α} {good : α → Reader → Prop} (known : good value start) :
    Forms drawn (Pure.pure value) start good := by
  intro formed result stop done
  cases done
  exact ⟨formed, known⟩

theorem throw {cause : ParseError} {good : α → Reader → Prop} :
    Forms drawn (MonadExcept.throw cause) start good := by
  intro _ result stop done
  cases done

theorem get {good : α → Reader → Prop} {next : Reader → Parse α}
    (back : Forms drawn (next start) start good) :
    Forms drawn (MonadState.get >>= next) start good :=
  back

theorem setCanPair {canPair : Bool} :
    Forms drawn (Parse.setCanPair canPair) start fun _ stop => stop.canPair = canPair := by
  intro formed value stop done
  cases done
  exact ⟨formed, rfl⟩

theorem setAllowUnidentified {allowed : Bool} :
    Forms drawn (Parse.setAllowUnidentified allowed) start fun _ _ => True := by
  intro formed value stop done
  cases done
  exact ⟨formed, trivial⟩

theorem peek : Forms drawn Parse.peek start fun _ stop => stop = start := by
  intro formed value stop done
  cases done
  exact ⟨formed, rfl⟩

theorem advance : Forms drawn Parse.advance start fun token _ => drawn token := by
  intro formed token stop done
  obtain ⟨rest, shape, rfl⟩ := Parse.advance_run done
  rw [Reader.Formed, shape] at formed
  obtain ⟨first, others⟩ := List.forall_mem_cons.mp formed.1
  exact ⟨⟨others, formed.2⟩, first⟩

theorem take {next : Token → Parse α} {good : α → Reader → Prop} {token : Token} {rest : List Token}
    (shape : start.rest = token :: rest)
    (back : ∀ stop, drawn token → Forms drawn (next token) stop good) :
    Forms drawn (Parse.advance >>= next) start good := by
  intro formed value stop done
  obtain ⟨taken, middle, ran, ends⟩ := bind_eq_ok done
  obtain ⟨formed, first⟩ := advance formed taken middle ran
  obtain ⟨others, shape', rfl⟩ := Parse.advance_run ran
  rw [shape] at shape'
  cases shape'
  exact back _ first formed value stop ends

theorem ifSees {accepted : Kind → Bool} {taken other : Parse α} {good : α → Reader → Prop}
    (yes : ∀ token rest, start.rest = token :: rest → accepted token.kind = true →
      Forms drawn taken start good)
    (no : Forms drawn other start good) :
    Forms drawn (do if ← Parse.sees accepted then taken else other) start good := by
  intro formed value stop done
  rw [bind_of_ok (Parse.sees_run accepted start)] at done
  by_cases seen : (start.rest.head?.map Token.kind).any accepted = true
  · rw [if_pos seen] at done
    obtain ⟨token, rest, shape, fits⟩ := Parse.head_of_any seen
    exact yes token rest shape fits formed value stop done
  · rw [if_neg seen] at done
    exact no formed value stop done

theorem ifCheck {accepted : Kind → Bool} {taken other : Parse α} {good : α → Reader → Prop}
    (yes : ∀ token rest, start.rest = token :: rest → accepted token.kind = true →
      start.canPair = true → Forms drawn taken start good)
    (no : Forms drawn other start good) :
    Forms drawn (do if ← Parse.check accepted then taken else other) start good := by
  intro formed value stop done
  rw [bind_of_ok (Parse.check_run accepted start)] at done
  by_cases seen : (start.canPair && (start.rest.head?.map Token.kind).any accepted) = true
  · rw [if_pos seen] at done
    obtain ⟨pairs, any⟩ := Bool.and_eq_true_iff.mp seen
    obtain ⟨token, rest, shape, fits⟩ := Parse.head_of_any any
    exact yes token rest shape fits pairs formed value stop done
  · rw [if_neg seen] at done
    exact no formed value stop done

theorem accept {kind : Kind} :
    Forms drawn (Parse.accept kind) start fun taken stop => taken = false → stop = start := by
  apply ifCheck
  · intro token rest shape fits pairs
    exact take shape fun stop _ => pure fun refused => nomatch refused
  · exact pure fun _ => rfl

theorem slot : Forms drawn Parse.slot start fun slot _ => SlotFormed drawn slot := by
  intro formed slot stop done
  cases done
  refine ⟨⟨fun token member => formed.1 token ((List.dropWhile_suffix _).subset member), formed.2⟩, ?_⟩
  intro token member
  have trivia := List.all_eq_true.mp List.all_takeWhile token member
  exact ⟨formed.1 token ((List.takeWhile_prefix _).subset member), trivia⟩

theorem postpone {stmt : Stmt} (kept : stmt.Formed drawn) :
    Forms drawn (Parse.postpone stmt) start fun _ _ => True := by
  intro formed value stop done
  cases done
  refine ⟨⟨formed.1, ?_⟩, trivial⟩
  have before := (Stmt.listFormed_iff drawn _).mp formed.2
  apply (Stmt.listFormed_iff drawn _).mpr
  intro other member
  obtain member | member := List.mem_append.mp member
  · exact before other member
  · rwa [List.mem_singleton.mp member]

theorem takeLeftovers :
    Forms drawn Parse.takeLeftovers start fun leftovers _ => Stmt.ListFormed drawn leftovers := by
  intro formed value stop done
  cases done
  exact ⟨⟨formed.1, trivial⟩, formed.2⟩

end Forms

end GmlLayout
