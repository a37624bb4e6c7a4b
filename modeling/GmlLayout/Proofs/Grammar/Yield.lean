import GmlLayout.Proofs.Grammar.Passage

/-!
What a parser yields. A judgement starts from the leaves that have been read so far and says which
leaves have been read when the parser is done; such judgements compose along the steps of a parser.
Statements that are kept for later are accounted for apart: without any, the leaves come in the order of
the source.
-/

namespace GmlLayout

/-- What was read between two states of a parse, up to the statements kept for later. -/
def Took (start stop : Reader) (leaves : List Leaf) : Prop :=
  ∃ postponed passed, stop.leftovers = start.leftovers ++ postponed ∧
    Passes (!postponed.isEmpty) start.rest passed stop.rest ∧
    passed.Perm (leaves ++ content (Stmt.listLeaves postponed)) ∧
    (postponed = [] → passed = leaves)

theorem listLeaves_append (first second : List Stmt) :
    Stmt.listLeaves (first ++ second) = Stmt.listLeaves first ++ Stmt.listLeaves second := by
  induction first with
  | nil => rfl
  | cons stmt first ih => simp [Stmt.listLeaves, ih]

namespace Took

theorem of_passes {start stop : Reader} {leaves : List Leaf} (same : stop.leftovers = start.leftovers)
    (passes : Passes false start.rest leaves stop.rest) : Took start stop leaves :=
  ⟨[], leaves, by simp [same], passes, by simp [Stmt.listLeaves], fun _ => rfl⟩

theorem append {start middle stop : Reader} {first second : List Leaf}
    (front : Took start middle first) (back : Took middle stop second) :
    Took start stop (first ++ second) := by
  obtain ⟨earlier, passed, grown, passes, perm, same⟩ := front
  obtain ⟨later, passed', grown', passes', perm', same'⟩ := back
  refine ⟨earlier ++ later, passed ++ passed', ?_, ?_, ?_, ?_⟩
  · rw [grown', grown, List.append_assoc]
  · apply Passes.append
    · exact passes.broaden fun some => by simp_all
    · exact passes'.broaden fun some => by simp_all
  · rw [listLeaves_append, content_append]
    calc (passed ++ passed').Perm
          ((first ++ content (Stmt.listLeaves earlier))
            ++ (second ++ content (Stmt.listLeaves later))) := perm.append perm'
      _ = first ++ (content (Stmt.listLeaves earlier) ++ second)
            ++ content (Stmt.listLeaves later) := by simp
      List.Perm _ (first ++ (second ++ content (Stmt.listLeaves earlier))
            ++ content (Stmt.listLeaves later)) :=
        (List.perm_append_comm.append_left first).append_right _
      _ = (first ++ second) ++ (content (Stmt.listLeaves earlier)
            ++ content (Stmt.listLeaves later)) := by simp
  · intro none
    obtain ⟨rfl, rfl⟩ := List.append_eq_nil_iff.mp none
    rw [same rfl, same' rfl]

theorem length_le {start stop : Reader} {leaves : List Leaf} (took : Took start stop leaves) :
    stop.rest.length ≤ start.rest.length := by
  obtain ⟨_, _, _, passes, _⟩ := took
  exact passes.length_le

end Took

/-- From `start`, where `sofar` has been read, the parser comes to where `leaves` of its value have. -/
def Yields {α : Type} (parser : Parse α) (start : Reader) (sofar : List Leaf)
    (leaves : α → List Leaf) : Prop :=
  ∀ value stop, parser start = .ok value stop →
    ∃ added, leaves value = sofar ++ added ∧ Took start stop added

theorem bind_eq_ok {α β : Type} {parser : Parse α} {next : α → Parse β} {start stop : Reader}
    {value : β} (done : (parser >>= next) start = .ok value stop) :
    ∃ first middle, parser start = .ok first middle ∧ next first middle = .ok value stop := by
  change EStateM.bind parser next start = _ at done
  unfold EStateM.bind at done
  split at done
  · rename_i first middle ran
    exact ⟨first, middle, ran, done⟩
  · cases done

theorem bind_of_ok {α β : Type} {parser : Parse α} {next : α → Parse β} {start middle : Reader}
    {first : α} (ran : parser start = .ok first middle) :
    (parser >>= next) start = next first middle := by
  change EStateM.bind parser next start = _
  unfold EStateM.bind
  rw [ran]

namespace Parse

theorem sees_run (accepted : Kind → Bool) (start : Reader) :
    sees accepted start = .ok ((start.rest.head?.map Token.kind).any accepted) start := rfl

theorem check_run (accepted : Kind → Bool) (start : Reader) :
    check accepted start =
      .ok (start.canPair && (start.rest.head?.map Token.kind).any accepted) start := by
  unfold check
  rw [bind_of_ok (show (get : Parse Reader) start = .ok start start from rfl)]
  cases start.canPair <;> rfl

theorem advance_run {start stop : Reader} {token : Token} (ran : advance start = .ok token stop) :
    ∃ rest, start.rest = token :: rest ∧ stop = { start with rest := rest } := by
  unfold advance at ran
  rw [bind_of_ok (show (get : Parse Reader) start = .ok start start from rfl)] at ran
  cases shape : start.rest with
  | nil =>
    rw [shape] at ran
    cases ran
  | cons first rest =>
    rw [shape] at ran
    cases ran
    exact ⟨rest, rfl, rfl⟩

theorem head_of_any {accepted : Kind → Bool} {tokens : List Token}
    (seen : (tokens.head?.map Token.kind).any accepted = true) :
    ∃ token rest, tokens = token :: rest ∧ accepted token.kind = true := by
  cases tokens with
  | nil => cases seen
  | cons token rest => exact ⟨token, rest, rfl, seen⟩

end Parse

namespace Yields

variable {α β : Type} {start : Reader} {sofar : List Leaf}

theorem bind {parser : Parse α} {next : α → Parse β} {middle : α → List Leaf}
    {leaves : β → List Leaf} (front : Yields parser start sofar middle)
    (back : ∀ value stop, parser start = .ok value stop →
      Yields (next value) stop (middle value) leaves) :
    Yields (parser >>= next) start sofar leaves := by
  intro value stop done
  obtain ⟨first, between, ran, rest⟩ := bind_eq_ok done
  obtain ⟨added, split, took⟩ := front first between ran
  obtain ⟨added', split', took'⟩ := back first between ran value stop rest
  refine ⟨added ++ added', ?_, took.append took'⟩
  rw [split', split, List.append_assoc]

theorem pure {value : α} {leaves : α → List Leaf} (same : leaves value = sofar) :
    Yields (Pure.pure value) start sofar leaves := by
  intro result stop done
  cases done
  exact ⟨[], by simp [same], .of_passes rfl .done⟩

theorem throw {cause : ParseError} {leaves : α → List Leaf} :
    Yields (MonadExcept.throw cause) start sofar leaves := by
  intro result stop done
  cases done

theorem get {leaves : α → List Leaf} {next : Reader → Parse α}
    (back : Yields (next start) start sofar leaves) :
    Yields (MonadState.get >>= next) start sofar leaves := by
  intro value stop done
  exact back value stop done

theorem still {parser : Parse α}
    (idle : ∀ value stop, parser start = .ok value stop →
      stop.rest = start.rest ∧ stop.leftovers = start.leftovers) :
    Yields parser start sofar fun _ => sofar := by
  intro value stop done
  obtain ⟨sameRest, sameLeftovers⟩ := idle value stop done
  refine ⟨[], by simp, .of_passes sameLeftovers ?_⟩
  rw [sameRest]
  exact .done

theorem peek : Yields Parse.peek start sofar fun _ => sofar :=
  still fun _ _ done => by cases done; exact ⟨rfl, rfl⟩

theorem setCanPair {canPair : Bool} :
    Yields (Parse.setCanPair canPair) start sofar fun _ => sofar :=
  still fun _ _ done => by cases done; exact ⟨rfl, rfl⟩

theorem setAllowUnidentified {allowed : Bool} :
    Yields (Parse.setAllowUnidentified allowed) start sofar fun _ => sofar :=
  still fun _ _ done => by cases done; exact ⟨rfl, rfl⟩

theorem ifSees {accepted : Kind → Bool} {taken other : Parse α} {leaves : α → List Leaf}
    (yes : ∀ token rest, start.rest = token :: rest → accepted token.kind = true →
      Yields taken start sofar leaves)
    (no : Yields other start sofar leaves) :
    Yields (do if ← Parse.sees accepted then taken else other) start sofar leaves := by
  intro value stop done
  rw [bind_of_ok (Parse.sees_run accepted start)] at done
  by_cases seen : (start.rest.head?.map Token.kind).any accepted = true
  · rw [if_pos seen] at done
    obtain ⟨token, rest, shape, fits⟩ := Parse.head_of_any seen
    exact yes token rest shape fits value stop done
  · rw [if_neg seen] at done
    exact no value stop done

theorem ifCheck {accepted : Kind → Bool} {taken other : Parse α} {leaves : α → List Leaf}
    (yes : ∀ token rest, start.rest = token :: rest → accepted token.kind = true →
      Yields taken start sofar leaves)
    (no : Yields other start sofar leaves) :
    Yields (do if ← Parse.check accepted then taken else other) start sofar leaves := by
  intro value stop done
  rw [bind_of_ok (Parse.check_run accepted start)] at done
  by_cases seen : (start.canPair && (start.rest.head?.map Token.kind).any accepted) = true
  · rw [if_pos seen] at done
    obtain ⟨token, rest, shape, fits⟩ := Parse.head_of_any (Bool.and_eq_true_iff.mp seen).2
    exact yes token rest shape fits value stop done
  · rw [if_neg seen] at done
    exact no value stop done

theorem advance {next : Token → Parse α} {leaves : α → List Leaf}
    (back : ∀ token rest, start.rest = token :: rest → ∃ leaf, Reads token leaf ∧
      Yields (next token) { start with rest := rest } (sofar ++ leaf) leaves) :
    Yields (Parse.advance >>= next) start sofar leaves := by
  intro value stop done
  obtain ⟨token, middle, ran, rest⟩ := bind_eq_ok done
  obtain ⟨after, shape, rfl⟩ := Parse.advance_run ran
  obtain ⟨leaf, one, more⟩ := back token after shape
  obtain ⟨added, split, took⟩ := more value stop rest
  refine ⟨leaf ++ added, by simp [split], Took.append ?_ took⟩
  refine .of_passes rfl ?_
  rw [shape]
  exact .one one

theorem take {next : Token → Parse α} {leaves : α → List Leaf} {token : Token} {rest : List Token}
    {leaf : List Leaf} (shape : start.rest = token :: rest) (one : Reads token leaf)
    (back : ∀ stop, Yields (next token) stop (sofar ++ leaf) leaves) :
    Yields (Parse.advance >>= next) start sofar leaves := by
  apply advance
  intro token' rest' shape'
  rw [shape] at shape'
  cases shape'
  exact ⟨leaf, one, back _⟩

theorem acceptAs {kind : Kind} {leaf : List Leaf}
    (one : ∀ token : Token, token.kind = kind → Reads token leaf) :
    Yields (Parse.accept kind) start sofar fun taken => sofar ++ if taken then leaf else [] := by
  apply ifCheck
  · intro token rest shape fits
    apply take shape (one token (of_decide_eq_true fits))
    intro stop
    exact pure (by simp)
  · exact pure (by simp)

theorem acceptSymbol {symbol : Symbol} :
    Yields (Parse.accept (.symbol symbol)) start sofar fun _ => sofar := by
  have yields : Yields (Parse.accept (.symbol symbol)) start sofar
      fun taken => sofar ++ if taken then [] else [] :=
    acceptAs fun token kind => .skipped (by rw [kind]; rfl)
  simpa using yields

theorem acceptWord {word : Keyword} (implied : word.isImplied = true) :
    Yields (Parse.accept (.keyword word)) start sofar
      fun taken => sofar ++ if taken then [.word word] else [] :=
  acceptAs fun _ kind => .word kind implied

theorem slotAs {make : Token → Leaf}
    (reads : ∀ token : Token, token.kind.isTrivia = true → Reads token [make token]) :
    Yields Parse.slot start sofar fun slot => sofar ++ slot.map make := by
  intro slot stop done
  cases done
  exact ⟨_, rfl, .of_passes rfl (Passes.slot reads start.rest)⟩

theorem slot : Yields Parse.slot start sofar fun slot => sofar ++ slotLeaves slot :=
  slotAs fun _ => .trivia

end Yields

end GmlLayout
