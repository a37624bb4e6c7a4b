import GmlLayout.Proofs.Grammar.OpeningWord

/-!
Every expression parser yields the leaves of the expression it returns, given that the rules it refers
back to do.
-/

namespace GmlLayout

def YieldsExpr (parser : Parse Expr) : Prop :=
  ∀ start sofar, Yields parser start sofar fun expr => sofar ++ content expr.leaves

/-- The rules that the grammar refers back to yield the leaves of what they return. -/
structure Rules.Faithful (rules : Rules) : Prop where
  statement : ∀ start sofar, Yields rules.statement start sofar
    fun stmt => sofar ++ content stmt.leaves
  expression : YieldsExpr rules.expression
  assignment : YieldsExpr rules.assignment
  ternary : YieldsExpr rules.ternary
  binary : ∀ tiers, (∀ tier ∈ tiers, tier ∈ Tier.all) → YieldsExpr (rules.binary tiers)
  unary : YieldsExpr rules.unary
  call : YieldsExpr rules.call

theorem Rules.faithful_empty : Rules.empty.Faithful where
  statement _ _ := Yields.throw
  expression _ _ := Yields.throw
  assignment _ _ := Yields.throw
  ternary _ _ := Yields.throw
  binary _ _ _ _ := Yields.throw
  unary _ _ := Yields.throw
  call _ _ := Yields.throw

/-! No operator is a number, so operators are read as they stand. -/

theorem isDotted_of_isAccessor {kind : Kind} (accessor : kind.isAccessor = true) :
    kind.isDotted = false := by
  cases kind <;> first | rfl | cases accessor

theorem isDotted_of_isStep {kind : Kind} (step : kind.isStep = true) : kind.isDotted = false := by
  cases kind <;> first | rfl | cases step

theorem isDotted_of_isUnary {kind : Kind} (unary : kind.isUnary = true) : kind.isDotted = false := by
  cases kind <;> first | rfl | cases unary

theorem isDotted_of_isAssignment {kind : Kind} (assignment : kind.isAssignment = true) :
    kind.isDotted = false := by
  cases kind <;> first | rfl | cases assignment

theorem isDotted_of_joins {tier : Tier} (known : tier ∈ Tier.all) {kind : Kind}
    (joins : tier.joins kind = true) : kind.isDotted = false := by
  simp only [Tier.all, List.mem_cons, List.not_mem_nil, or_false] at known
  rcases known with rfl | rfl | rfl | rfl | rfl | rfl | rfl | rfl | rfl
  all_goals cases kind <;> first | rfl | cases joins

namespace Parse

variable {rules : Rules}

theorem entries_yields {entry : Parse Expr} (yields : YieldsExpr entry) (closing : Kind) (count : Nat)
    (start : Reader) (sofar : List Leaf) :
    Yields (entries entry closing count) start sofar
      fun series => sofar ++ content (Expr.entryLeaves series.endDelimited series.items) := by
  induction count generalizing start sofar with
  | zero => exact Yields.throw
  | succ left ih =>
    unfold entries
    apply Yields.ifCheck
    · intro _ _ _ _
      exact Yields.pure (by simp [Expr.entryLeaves])
    · apply (yields start sofar).bind
      intro value stop _
      apply Yields.acceptSymbol.bind
      intro more stop _
      apply Yields.slot.bind
      intro trailing stop _
      split
      · apply (ih stop _).bind
        intro others stop _
        exact Yields.pure (by simp [Expr.entryLeaves])
      · exact Yields.pure (by simp [Expr.entryLeaves])

theorem series_yields (faithful : rules.Faithful) (closing : Symbol) (start : Reader)
    (sofar : List Leaf) :
    Yields (series rules (.symbol closing)) start sofar
      fun series => sofar ++ content (Expr.entryLeaves series.endDelimited series.items) := by
  unfold series
  apply (entries_yields faithful.expression _ _ start sofar).bind
  intro entries stop _
  apply Yields.acceptSymbol.bind
  intro _ stop _
  exact Yields.pure rfl

theorem groupRest_yields {expression : Parse Expr} (yields : YieldsExpr expression) (count : Nat)
    (start : Reader) (sofar : List Leaf) :
    Yields (groupRest expression count) start sofar
      fun others => sofar ++ content (Expr.listLeaves others) := by
  induction count generalizing start sofar with
  | zero => exact Yields.throw
  | succ left ih =>
    unfold groupRest
    apply Yields.acceptSymbol.bind
    intro closed stop _
    split
    · exact Yields.pure (by simp [Expr.listLeaves])
    · apply (yields stop sofar).bind
      intro expr stop _
      apply (ih stop _).bind
      intro others stop _
      exact Yields.pure (by simp [Expr.listLeaves])

theorem grouping_yields (faithful : rules.Faithful) : YieldsExpr (grouping rules) := by
  intro start sofar
  unfold grouping
  apply Yields.slot.bind
  intro afterOpen stop _
  apply (faithful.expression stop _).bind
  intro first stop _
  apply (groupRest_yields faithful.expression _ stop _).bind
  intro others stop _
  apply Yields.slot.bind
  intro afterClose stop _
  exact Yields.pure (by simp [Expr.leaves, Expr.listLeaves])

theorem array_yields (faithful : rules.Faithful) : YieldsExpr (array rules) := by
  intro start sofar
  unfold array
  apply Yields.slot.bind
  intro afterOpen stop _
  apply (series_yields faithful _ stop _).bind
  intro elements stop _
  exact Yields.pure (by simp [Expr.leaves])

theorem unidentified_yields (token : Token) (start : Reader) (sofar : List Leaf) :
    Yields (unidentified token) start (sofar ++ [.token token])
      fun expr => sofar ++ content expr.leaves := by
  unfold unidentified
  apply Yields.get
  split
  · apply Yields.slot.bind
    intro trailing stop _
    exact Yields.pure (by simp [Expr.leaves])
  · exact Yields.throw

theorem primary_yields (faithful : rules.Faithful) : YieldsExpr (primary rules) := by
  intro start sofar
  unfold primary
  apply Yields.advance
  intro token rest _
  split
  · rename_i kind
    refine ⟨[.token token], .token (by rw [kind]; rfl), Yields.slot.bind fun after stop _ => ?_⟩
    exact Yields.pure (by simp [Expr.leaves])
  · rename_i kind
    refine ⟨[.token token], .token (by rw [kind]; rfl), Yields.slot.bind fun after stop _ => ?_⟩
    exact Yields.pure (by simp [Expr.leaves])
  · rename_i kind
    refine ⟨[.startDot token], .startDot kind, Yields.slot.bind fun after stop _ => ?_⟩
    exact Yields.pure (by simp [Expr.leaves])
  · rename_i kind
    refine ⟨[.endDot token], .endDot kind, Yields.slot.bind fun after stop _ => ?_⟩
    exact Yields.pure (by simp [Expr.leaves])
  · rename_i kind
    refine ⟨[.token token], .token (by rw [kind]; rfl), Yields.slot.bind fun after stop _ => ?_⟩
    exact Yields.pure (by simp [Expr.leaves])
  · rename_i kind
    refine ⟨[], .skipped (by rw [kind]; rfl), ?_⟩
    simpa using grouping_yields faithful _ sofar
  · rename_i kind
    refine ⟨[], .skipped (by rw [kind]; rfl), ?_⟩
    simpa using array_yields faithful _ sofar
  · rename_i kind
    refine ⟨[], .skipped (by rw [kind]; rfl), Yields.setCanPair.bind fun _ stop _ => ?_⟩
    exact Yields.pure (by simp [Expr.leaves])
  · rename_i kind
    refine ⟨[.token token], .token (by rw [kind]; rfl), Yields.setCanPair.bind fun _ stop _ => ?_⟩
    exact Yields.pure (by simp [Expr.leaves])
  · rename_i kind
    refine ⟨[.token token], .token (by rw [kind]; rfl), Yields.setCanPair.bind fun _ stop _ => ?_⟩
    exact Yields.pure (by simp [Expr.leaves])
  · rename_i startDot endDot _ _ _ _ _ _
    refine ⟨[.token token], .token ?_, unidentified_yields token _ sofar⟩
    unfold Kind.isDotted
    split
    · exact absurd ‹token.kind = _› startDot
    · exact absurd ‹token.kind = _› endDot
    · rfl

theorem indices_yields {expression : Parse Expr} (yields : YieldsExpr expression) (count : Nat)
    (start : Reader) (sofar : List Leaf) :
    Yields (indices expression count) start sofar
      fun indices => sofar ++ content (Expr.indexLeaves indices) := by
  induction count generalizing start sofar with
  | zero => exact Yields.pure (by simp [Expr.indexLeaves])
  | succ left ih =>
    unfold indices
    apply Yields.ifSees
    · intro _ _ _ _
      apply Yields.slot.bind
      intro before stop _
      apply (yields stop _).bind
      intro index stop _
      apply Yields.acceptSymbol.bind
      intro more stop _
      split
      · apply (ih stop _).bind
        intro others stop _
        exact Yields.pure (by simp [Expr.indexLeaves])
      · exact Yields.pure (by simp [Expr.indexLeaves])
    · exact Yields.pure (by simp [Expr.indexLeaves])

theorem accesses_yields (faithful : rules.Faithful) (count : Nat) (owner : Expr) (start : Reader)
    (sofar : List Leaf) :
    Yields (accesses rules count owner) start (sofar ++ content owner.leaves)
      fun expr => sofar ++ content expr.leaves := by
  induction count generalizing owner start with
  | zero => exact Yields.pure rfl
  | succ left ih =>
    unfold accesses
    apply Yields.ifSees
    · intro token rest shape fits
      have kind : token.kind = .symbol .dot := of_decide_eq_true fits
      apply Yields.take shape (.skipped (by rw [kind]; rfl))
      intro stop
      apply Yields.slot.bind
      intro afterDot stop _
      apply (faithful.call stop _).bind
      intro member stop _
      apply Yields.slot.bind
      intro trailing stop _
      simpa [Expr.leaves] using ih (.dotted owner afterDot member trailing) stop
    · apply Yields.ifSees
      · intro token rest shape fits
        apply Yields.take shape (.token (isDotted_of_isAccessor fits))
        intro stop
        apply (indices_yields faithful.expression _ stop _).bind
        intro indices stop _
        apply Yields.acceptSymbol.bind
        intro _ stop _
        apply Yields.slot.bind
        intro trailing stop _
        simpa [Expr.leaves] using ih (.access owner token indices trailing) stop
      · exact Yields.pure rfl

theorem arguments_yields (faithful : rules.Faithful) (callee : Expr) (start : Reader)
    (sofar : List Leaf) :
    Yields (arguments rules callee) start (sofar ++ content callee.leaves)
      fun expr => sofar ++ content expr.leaves := by
  unfold arguments
  apply Yields.acceptSymbol.bind
  intro called stop _
  split
  · apply Yields.slot.bind
    intro afterOpen stop _
    apply (series_yields faithful _ stop _).bind
    intro arguments stop _
    apply Yields.slot.bind
    intro trailing stop _
    apply Yields.pure
    by_cases lambda : Print.passesLambda arguments.items = true <;> simp [Expr.leaves, lambda]
  · exact Yields.pure rfl

theorem call_yields (faithful : rules.Faithful) : YieldsExpr (call rules) := by
  intro start sofar
  unfold call
  apply (primary_yields faithful start sofar).bind
  intro callee stop _
  apply (arguments_yields faithful callee stop sofar).bind
  intro called stop _
  exact accesses_yields faithful _ called stop sofar

theorem stepped_yields (faithful : rules.Faithful) : YieldsExpr (stepped rules) := by
  intro start sofar
  unfold stepped
  apply (call_yields faithful start sofar).bind
  intro operand stop _
  apply Yields.ifCheck
  · intro token rest shape fits
    apply Yields.take shape (.token (isDotted_of_isStep fits))
    intro stop
    apply Yields.slot.bind
    intro afterOperator stop _
    exact Yields.pure (by simp [Expr.leaves])
  · exact Yields.pure rfl

theorem unary_yields (faithful : rules.Faithful) : YieldsExpr (unary rules) := by
  intro start sofar
  unfold unary
  apply Yields.ifCheck
  · intro token rest shape fits
    apply Yields.take shape (.token (isDotted_of_isUnary fits))
    intro stop
    apply Yields.slot.bind
    intro afterOperator stop _
    apply (faithful.unary stop _).bind
    intro operand stop _
    exact Yields.pure (by simp [Expr.leaves])
  · exact stepped_yields faithful start sofar

theorem chain_yields {operand : Parse Expr} (yields : YieldsExpr operand) {joins : Kind → Bool}
    (undotted : ∀ kind, joins kind = true → kind.isDotted = false) (count : Nat) (left : Expr)
    (start : Reader) (sofar : List Leaf) :
    Yields (chain operand joins count left) start (sofar ++ content left.leaves)
      fun expr => sofar ++ content expr.leaves := by
  induction count generalizing left start with
  | zero => exact Yields.pure rfl
  | succ count ih =>
    unfold chain
    apply Yields.ifSees
    · intro operator rest shape fits
      apply Yields.take shape (.token (undotted _ fits))
      intro stop
      apply Yields.slot.bind
      intro afterOperator stop _
      apply (yields stop _).bind
      intro right stop _
      simpa [Expr.leaves] using ih (.binary left operator afterOperator right) stop
    · exact Yields.pure rfl

theorem binary_yields (faithful : rules.Faithful) (tiers : List Tier)
    (known : ∀ tier ∈ tiers, tier ∈ Tier.all) : YieldsExpr (binary rules tiers) := by
  induction tiers with
  | nil => exact unary_yields faithful
  | cons tier tighter ih =>
    intro start sofar
    have tighterKnown : ∀ tier ∈ tighter, tier ∈ Tier.all :=
      fun tier member => known tier (List.mem_cons_of_mem _ member)
    have undotted : ∀ kind, tier.joins kind = true → kind.isDotted = false :=
      fun kind => isDotted_of_joins (known tier List.mem_cons_self)
    unfold binary
    apply (ih tighterKnown start sofar).bind
    intro left stop _
    split
    · apply Yields.get
      split
      · exact chain_yields (faithful.binary tighter tighterKnown) undotted _ left stop sofar
      · exact Yields.pure rfl
    · apply Yields.ifCheck
      · intro operator rest shape fits
        apply Yields.take shape (.token (undotted _ fits))
        intro stop
        apply Yields.slot.bind
        intro afterOperator stop _
        apply (faithful.binary (tier :: tighter) known stop _).bind
        intro right stop _
        exact Yields.pure (by simp [Expr.leaves])
      · exact Yields.pure rfl

theorem ternary_yields (faithful : rules.Faithful) : YieldsExpr (ternary rules) := by
  intro start sofar
  unfold ternary
  apply (binary_yields faithful Tier.all (fun _ member => member) start sofar).bind
  intro condition stop _
  apply Yields.acceptSymbol.bind
  intro asked stop _
  split
  · apply Yields.slot.bind
    intro afterHook stop _
    apply (faithful.ternary stop _).bind
    intro whenTrue stop _
    apply Yields.acceptSymbol.bind
    intro _ stop _
    apply Yields.slot.bind
    intro afterColon stop _
    apply (faithful.ternary stop _).bind
    intro whenFalse stop _
    exact Yields.pure (by simp [Expr.leaves])
  · exact Yields.pure rfl

theorem functionRest_yields (faithful : rules.Faithful) (start : Reader) (sofar : List Leaf) :
    Yields (functionRest rules) start (sofar ++ [.word .functionWord])
      fun expr => sofar ++ content expr.leaves := by
  unfold functionRest
  apply Yields.slot.bind
  intro afterKeyword stop _
  apply (faithful.expression stop _).bind
  intro signature stop _
  apply Yields.slot.bind
  intro afterSignature stop _
  apply (Yields.acceptWord rfl).bind
  intro isConstructor stop _
  apply Yields.slot.bind
  intro trailing stop _
  apply Yields.pure
  cases isConstructor <;> simp [Expr.leaves]

theorem lifetimeRest_yields (faithful : rules.Faithful) (operator : Token) (start : Reader)
    (sofar : List Leaf) :
    Yields (lifetimeRest rules operator) start (sofar ++ [.opening operator])
      fun expr => sofar ++ content expr.leaves := by
  unfold lifetimeRest
  apply Yields.slot.bind
  intro afterOperator stop _
  apply (faithful.expression stop _).bind
  intro operand stop _
  apply Yields.slot.bind
  intro trailing stop _
  exact Yields.pure (by simp [Expr.leaves])

theorem opened_yields {word : Token} {leaf : List Leaf} {rest : Parse Expr} {start middle : Reader}
    {sofar : List Leaf} {leaves : Expr → List Leaf} (took : TookWord start middle word)
    (opens : Opens false word leaf) (more : Yields rest middle (sofar ++ leaf) leaves) {result : Expr}
    {stop : Reader} (done : rest middle = .ok result stop) :
    ∃ added, leaves result = sofar ++ added ∧ Took start stop added := by
  obtain ⟨tokens, shape, dropped, kept⟩ := took
  obtain ⟨added, split, took⟩ := more result stop done
  refine ⟨leaf ++ added, by rw [split, List.append_assoc], Took.append (.of_passes kept ?_) took⟩
  rw [shape, dropped]
  simpa using Passes.opened opens .done

theorem completed_yields (faithful : rules.Faithful) :
    YieldsExpr (do let opening ← ternary rules; completed rules opening) := by
  intro start sofar result stop done
  obtain ⟨opening, middle, ran, rest⟩ := bind_eq_ok done
  have plain : completed rules opening middle = .ok opening middle →
      ∃ added, sofar ++ content result.leaves = sofar ++ added ∧ Took start stop added := by
    intro same
    rw [same] at rest
    cases rest
    exact ternary_yields faithful start sofar _ _ ran
  cases opening with
  | unidentified word trailing =>
    have took : TookWord start middle word := bare_ternary start _ middle ran
    by_cases function : word.kind = .keyword .functionWord
    · simp only [completed, function] at rest
      exact opened_yields took (.function function) (functionRest_yields faithful middle sofar) rest
    · by_cases lifetime : word.kind = .keyword .newWord ∨ word.kind = .keyword .deleteWord
      · have opened : completed rules (.unidentified word trailing) = lifetimeRest rules word := by
          rcases lifetime with kind | kind <;> simp [completed, kind]
        rw [opened] at rest
        exact opened_yields took (.lifetime lifetime)
          (lifetimeRest_yields faithful word middle sofar) rest
      · apply plain
        obtain ⟨notNew, notDelete⟩ := not_or.mp lifetime
        simp only [completed]
        rfl
  | _ => exact plain rfl

theorem assignment_yields (faithful : rules.Faithful) : YieldsExpr (assignment rules) := by
  intro start sofar
  have regrouped : assignment rules =
      (do let opening ← ternary rules; completed rules opening) >>= fun target => do
        if ← check Kind.isAssignment then
          let operator ← advance
          let afterOperator ← slot
          let value ← rules.assignment
          return .assign target operator afterOperator value
        else
          return target := by
    rw [bind_assoc]
    rfl
  rw [regrouped]
  apply (completed_yields faithful start sofar).bind
  intro target stop _
  apply Yields.ifCheck
  · intro operator rest shape fits
    apply Yields.take shape (.token (isDotted_of_isAssignment fits))
    intro stop
    apply Yields.slot.bind
    intro afterOperator stop _
    apply (faithful.assignment stop _).bind
    intro value stop _
    exact Yields.pure (by simp [Expr.leaves])
  · exact Yields.pure rfl

theorem expression_yields (faithful : rules.Faithful) : YieldsExpr (expression rules) := by
  intro start sofar
  unfold expression
  apply Yields.setAllowUnidentified.bind
  intro _ stop _
  apply (assignment_yields faithful stop sofar).bind
  intro expr stop _
  apply Yields.setCanPair.bind
  intro _ stop _
  apply Yields.setAllowUnidentified.bind
  intro _ stop _
  exact Yields.pure rfl

end Parse

end GmlLayout
