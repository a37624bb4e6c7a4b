import GmlLayout.Proofs.Grammar.PlainProgram
import GmlLayout.Proofs.Grammar.Program

/-!
Programs of line breaks. A statement that is a line break without a semicolon comes from one token, and
no other statement comes from line breaks alone. So a source holds nothing but line breaks exactly if all
its statements are line breaks.
-/

namespace GmlLayout

namespace Parse

variable {rules : Rules}

def Raises (parser : Parse Stmt) : Prop :=
  ∀ start result stop, parser start = .ok result stop → result.isExpression = false

namespace Raises

theorem bind {α : Type} {parser : Parse α} {next : α → Parse Stmt} (back : ∀ value, Raises (next value)) :
    Raises (parser >>= next) := by
  intro start result stop done
  obtain ⟨value, middle, _, rest⟩ := bind_eq_ok done
  exact back value middle result stop rest

theorem pure {statement : Stmt} (raised : statement.isExpression = false) : Raises (Pure.pure statement) := by
  intro start result stop done
  cases done
  exact raised

theorem ite {test : Prop} [Decidable test] {taken other : Parse Stmt} (yes : Raises taken)
    (no : Raises other) : Raises (if test then taken else other) := by
  split
  · exact yes
  · exact no

end Raises

theorem raises_declaration : Raises (declaration rules) :=
  .bind fun _ => .bind fun _ => .bind fun _ => .bind fun _ => .pure rfl

theorem raises_conditionalRest : Raises (conditionalRest rules) := by
  refine .bind fun _ => .bind fun _ => .bind fun _ => .bind fun _ => .bind fun _ => .ite ?_ ?_
  · exact .bind fun _ => .bind fun _ => .bind fun _ => .pure rfl
  · exact .bind fun _ => .pure rfl

theorem raises_forRest : Raises (forRest rules) := by
  refine .bind fun _ => .bind fun _ => .bind fun _ => .bind fun _ => .bind fun _ => ?_
  refine .bind fun _ => .bind fun _ => .bind fun _ => .bind fun _ => .bind fun _ => ?_
  exact .bind fun _ => .bind fun _ => .bind fun _ => .bind fun _ => .bind fun _ => .pure rfl

theorem raises_opened {token : Token} {rest : Parse Stmt} (found : opened rules token = some rest) :
    Raises rest := by
  unfold opened at found
  split at found
  case h_14 =>
    obtain ⟨form, _, rfl⟩ := Option.map_eq_some_iff.mp found
    exact .pure rfl
  all_goals obtain rfl := Option.some.inj found
  · exact .bind fun _ => .bind fun _ => .bind fun _ => .pure rfl
  · exact .bind fun _ => .bind fun _ => .bind fun _ => .bind fun _ => .pure rfl
  · exact .bind fun _ => .bind fun _ => .bind fun _ => .bind fun _ => .bind fun _ => .bind fun _ => .pure rfl
  · exact raises_conditionalRest
  · exact .bind fun _ => .ite (.bind fun _ => .pure rfl) (.bind fun _ => .bind fun _ => .pure rfl)
  · exact .bind fun _ => .pure rfl
  · exact .bind fun _ => .pure rfl
  · exact .bind fun _ => .bind fun _ => .bind fun _ => .bind fun _ => .bind fun _ => .bind fun _ => .pure rfl
  · exact .bind fun _ => .bind fun _ => .bind fun _ => .bind fun _ => .pure rfl
  · exact .bind fun _ => .bind fun _ => .bind fun _ => .bind fun _ => .pure rfl
  · exact .bind fun _ => .bind fun _ => .bind fun _ => .bind fun _ => .pure rfl
  · refine .bind fun _ => .bind fun _ => .bind fun _ => .bind fun _ => ?_
    exact .bind fun _ => .bind fun _ => .bind fun _ => .pure rfl
  · exact raises_forRest

theorem expressionStatement_tookBreak {start stop : Reader}
    (done : expressionStatement rules start = .ok .lineBreak stop) : TookBreak start stop := by
  obtain ⟨value, middle, ran, done⟩ := bind_eq_ok done
  obtain ⟨closed, later, accepted, done⟩ := bind_eq_ok done
  cases done
  unfold semicolon accept at accepted
  rw [bind_of_ok (check_run _ middle)] at accepted
  split at accepted
  · obtain ⟨_, _, _, rest⟩ := bind_eq_ok accepted
    cases rest
  · cases accepted
    exact expression_tookBreak ran

theorem statement_tookBreak {start stop : Reader} (done : statement rules start = .ok .lineBreak stop) :
    TookBreak start stop := by
  unfold statement at done
  rw [bind_of_ok (show (get : Parse Reader) start = .ok start start from rfl)] at done
  cases head : start.rest.head? with
  | none =>
    simp only [head] at done
    exact expressionStatement_tookBreak done
  | some token =>
    simp only [head] at done
    split at done
    · cases raises_declaration start _ stop done
    · cases found : opened rules token with
      | some rest =>
        simp only [found] at done
        obtain ⟨_, middle, _, ran⟩ := bind_eq_ok done
        cases raises_opened found middle _ stop ran
      | none =>
        simp only [found] at done
        exact expressionStatement_tookBreak done

theorem units_tookBreaks {count : Nat} {start stop : Reader} {units : List (Stmt × List Stmt)}
    (covered : start.rest.length ≤ count) (fresh : start.leftovers = [])
    (done : Parse.units (statement rules) count start = .ok units stop)
    (breaks : ∀ unit ∈ units, unit.1 = .lineBreak) : ∀ token ∈ start.rest, token.kind = .newline := by
  induction count generalizing start units with
  | zero =>
    rw [List.length_eq_zero_iff.mp (Nat.le_zero.mp covered)]
    exact fun _ member => nomatch member
  | succ left ih =>
    by_cases none : start.rest = []
    · rw [none]
      exact fun _ member => nomatch member
    · obtain ⟨first, middle, others, ran, rest, rfl⟩ := units_step none done
      obtain ⟨isBreak, othersBreak⟩ := List.forall_mem_cons.mp breaks
      simp only at isBreak
      rw [isBreak] at ran
      obtain ⟨token, isNewline, shape, kept⟩ := statement_tookBreak ran
      have shape : start.rest = token :: middle.rest := shape
      rw [shape] at covered ⊢
      rw [List.length_cons] at covered
      have later := @ih { middle with leftovers := [] } others (by simp only; omega) rfl rest othersBreak
      exact List.forall_mem_cons.mpr ⟨isNewline, later⟩

end Parse

open Parse

/-- A source holds nothing but line breaks exactly if its statements are all line breaks. -/
theorem lineBreaks_iff {source : String} {program : List Stmt} (parsed : parse source = .ok program) :
    (∀ statement ∈ program, statement = .lineBreak) ↔ ∀ token ∈ scan source, token.kind = .newline := by
  cases tokens : scan source with
  | nil =>
    unfold parse parseTokens at parsed
    rw [tokens] at parsed
    cases parsed
    exact iff_of_true nofun nofun
  | cons token others =>
    constructor
    · intro breaks
      obtain ⟨units, stop, ran, rfl⟩ := parse_eq_ok parsed
      unfold parseUnits at ran
      rw [tokens] at ran
      have covered : (Reader.rest { rest := token :: others }).length ≤ (token :: others).length :=
        Nat.le_refl _
      refine units_tookBreaks covered rfl ran fun unit member => breaks _ ?_
      exact List.mem_flatMap.mpr ⟨unit, member, List.mem_cons_self⟩
    · intro breaks
      have leads := @leads_lineBreaks (.upTo others.length) [] 0 _ _ _ breaks .nil .nil leads_end
      rw [List.append_nil, List.append_nil] at leads
      obtain ⟨allowed, read⟩ := leads false
      have read : parseTokens (token :: others) =
          .ok (List.replicate (token :: others).length .lineBreak) (.before [] allowed) := read
      unfold parse at parsed
      rw [tokens, read] at parsed
      cases parsed
      exact fun statement member => List.eq_of_mem_replicate member

end GmlLayout
