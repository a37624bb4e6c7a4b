import GmlLayout.Proofs.Grammar.Progress

/-!
Whole programs. A program is read in units, a statement and the statements that were kept for after it;
reading a program is reading its units in a row. All tokens are passed, and without statements kept for
later the leaves of the program come in the order of the source.
-/

namespace GmlLayout

namespace Parse

/-- The statements of a program, each with those that were found inside it. -/
def units (statement : Parse Stmt) : Nat → Parse (List (Stmt × List Stmt))
  | 0 => return []
  | left + 1 => do
    if ← sees (fun _ => true) then
      setCanPair true
      let stmt ← statement
      let leftovers ← takeLeftovers
      let others ← units statement left
      return (stmt, leftovers) :: others
    else
      return []

def inOrder (units : List (Stmt × List Stmt)) : List Stmt :=
  units.flatMap fun unit => unit.1 :: unit.2

theorem program_eq_units (statement : Parse Stmt) (count : Nat) :
    program statement count = (do return inOrder (← units statement count)) := by
  induction count with
  | zero => rfl
  | succ left ih =>
    unfold program units
    rw [ih]
    funext start
    rw [bind_of_ok (sees_run _ start), bind_assoc, bind_of_ok (sees_run _ start)]
    split
    · simp [inOrder]
    · rfl

theorem units_step {statement : Parse Stmt} {left : Nat} {start stop : Reader}
    {units : List (Stmt × List Stmt)} (some : start.rest ≠ [])
    (done : Parse.units statement (left + 1) start = .ok units stop) :
    ∃ stmt middle others, statement { start with canPair := true } = .ok stmt middle ∧
      Parse.units statement left { middle with leftovers := [] } = .ok others stop ∧
      units = (stmt, middle.leftovers) :: others := by
  unfold Parse.units at done
  rw [bind_of_ok (sees_run _ start)] at done
  obtain ⟨token, rest, shape⟩ := List.exists_cons_of_ne_nil some
  rw [if_pos (by simp [shape])] at done
  obtain ⟨_, paired, ran, done⟩ := bind_eq_ok done
  cases ran
  obtain ⟨stmt, middle, ran, done⟩ := bind_eq_ok done
  obtain ⟨leftovers, emptied, taken, done⟩ := bind_eq_ok done
  cases taken
  obtain ⟨others, final, ran', done⟩ := bind_eq_ok done
  cases done
  exact ⟨stmt, middle, others, ran, ran', rfl⟩

theorem units_none {statement : Parse Stmt} {count : Nat} {start stop : Reader}
    {units : List (Stmt × List Stmt)} (none : start.rest = [])
    (done : Parse.units statement count start = .ok units stop) : units = [] ∧ stop = start := by
  cases count with
  | zero =>
    cases done
    exact ⟨rfl, rfl⟩
  | succ left =>
    unfold Parse.units at done
    rw [bind_of_ok (sees_run _ start), if_neg (by simp [none])] at done
    cases done
    exact ⟨rfl, rfl⟩

theorem units_passes {statement : Parse Stmt} (yields : YieldsStmt statement) (takes : Takes statement)
    {count : Nat} {start stop : Reader} {units : List (Stmt × List Stmt)}
    (covered : start.rest.length ≤ count) (fresh : start.leftovers = [])
    (done : Parse.units statement count start = .ok units stop) :
    ∃ passed, Passes (!(units.flatMap Prod.snd).isEmpty) start.rest passed [] ∧
      passed.Perm (content (Stmt.listLeaves (inOrder units))) ∧
      (units.flatMap Prod.snd = [] → passed = content (Stmt.listLeaves (inOrder units))) := by
  induction count generalizing start units with
  | zero =>
    have none : start.rest = [] := List.length_eq_zero_iff.mp (Nat.le_zero.mp covered)
    obtain ⟨rfl, rfl⟩ := units_none none done
    exact ⟨[], by rw [none]; exact .done, .nil, fun _ => rfl⟩
  | succ left ih =>
    by_cases none : start.rest = []
    · obtain ⟨rfl, rfl⟩ := units_none none done
      exact ⟨[], by rw [none]; exact .done, .nil, fun _ => rfl⟩
    · obtain ⟨stmt, middle, others, ran, rest, rfl⟩ := units_step none done
      obtain ⟨added, split, took⟩ := yields _ [] stmt middle ran
      obtain ⟨postponed, passed, grown, passes, perm, same⟩ := took
      have shorter := takes _ stmt middle ran
      have coveredRest : ({ middle with leftovers := [] } : Reader).rest.length ≤ left := by
        simp only at shorter
        simp only
        omega
      obtain ⟨passed', passes', perm', same'⟩ := ih coveredRest (Eq.refl []) rest
      obtain rfl : middle.leftovers = postponed := by simpa [fresh] using grown
      obtain rfl : content stmt.leaves = added := by simpa using split
      refine ⟨passed ++ passed', ?_, ?_, ?_⟩
      · have either : ∀ first second : List Stmt,
            ((!first.isEmpty) = true → (!(first ++ second).isEmpty) = true) ∧
              ((!second.isEmpty) = true → (!(first ++ second).isEmpty) = true) := by
          intro first second
          cases first <;> simp
        rw [List.flatMap_cons]
        exact (passes.broaden (either _ _).1).append (passes'.broaden (either _ _).2)
      · simp only [inOrder, List.flatMap_cons, List.cons_append, Stmt.listLeaves, listLeaves_append,
          content_append, ← List.append_assoc]
        exact perm.append perm'
      · intro none
        simp only [List.flatMap_cons, List.append_eq_nil_iff] at none
        rw [same none.1, same' none.2]
        simp [inOrder, Stmt.listLeaves, none.1]

end Parse

def parseUnits (source : String) : EStateM.Result ParseError Reader (List (Stmt × List Stmt)) :=
  Parse.units (Rules.upTo (scan source).length).statement (scan source).length { rest := scan source }

/-- The statements that the parse of a source keeps for after the one they were found in. -/
def leftovers (source : String) : List Stmt :=
  match parseUnits source with
  | .ok units _ => units.flatMap Prod.snd
  | .error _ _ => []

theorem parse_eq_ok {source : String} {program : List Stmt} (parsed : parse source = .ok program) :
    ∃ units stop, parseUnits source = .ok units stop ∧ program = Parse.inOrder units := by
  unfold parse parseTokens at parsed
  rw [Parse.program_eq_units] at parsed
  split at parsed
  · rename_i result stop ran
    cases parsed
    obtain ⟨units, stop', ran, rest⟩ := bind_eq_ok ran
    cases rest
    exact ⟨units, _, ran, rfl⟩
  · cases parsed

/-- A source that is read is passed from its first token to its last, and its program holds the leaves of
that passage. -/
theorem parse_passes {source : String} {program : List Stmt} (parsed : parse source = .ok program) :
    ∃ broken passed, Passes broken (scan source) passed [] ∧
      passed.Perm (content (Stmt.listLeaves program)) ∧
      (leftovers source = [] → broken = false ∧ passed = content (Stmt.listLeaves program)) := by
  obtain ⟨units, stop, ran, rfl⟩ := parse_eq_ok parsed
  have same : leftovers source = units.flatMap Prod.snd := by
    unfold leftovers
    rw [ran]
  have yields : YieldsStmt (Rules.upTo (scan source).length).statement :=
    (Rules.faithful_upTo _).statement
  have covered : ({ rest := scan source } : Reader).rest.length ≤ (scan source).length := Nat.le_refl _
  obtain ⟨passed, passes, perm, order⟩ :=
    Parse.units_passes yields (Rules.takes_upTo _) covered (Eq.refl []) ran
  refine ⟨_, passed, passes, perm, fun none => ?_⟩
  rw [same] at none
  exact ⟨by simp [none], order none⟩

end GmlLayout
