import GmlLayout.Proofs.Grammar.Forms

/-!
Expressions are formed as they should be, given that the rules the grammar refers back to form theirs. The
one thing that takes care is a line break that was read as an expression: it turns pairing off, so no
operator takes it as its left operand.
-/

namespace GmlLayout

variable {drawn : Token → Prop}

def FormsExpr (drawn : Token → Prop) (parser : Parse Expr) : Prop :=
  ∀ start, Forms drawn parser start fun expr _ => expr.Formed drawn

def FormsStmt (drawn : Token → Prop) (parser : Parse Stmt) : Prop :=
  ∀ start, Forms drawn parser start fun stmt _ => stmt.Formed drawn

/-- The expression is formed, and it can be a bare line break only while pairing is off. -/
def Expr.Pairs (drawn : Token → Prop) (expr : Expr) (reader : Reader) : Prop :=
  expr.Formed drawn ∧ (expr = .newline → reader.canPair = false)

structure Rules.Forming (drawn : Token → Prop) (rules : Rules) : Prop where
  statement : FormsStmt drawn rules.statement
  expression : FormsExpr drawn rules.expression
  assignment : FormsExpr drawn rules.assignment
  ternary : FormsExpr drawn rules.ternary
  binary : ∀ tiers, (∀ tier ∈ tiers, tier ∈ Tier.all) → FormsExpr drawn (rules.binary tiers)
  unary : FormsExpr drawn rules.unary
  call : FormsExpr drawn rules.call

theorem Rules.forming_empty : Rules.empty.Forming drawn where
  statement _ := Forms.throw
  expression _ := Forms.throw
  assignment _ := Forms.throw
  ternary _ := Forms.throw
  binary _ _ _ := Forms.throw
  unary _ := Forms.throw
  call _ := Forms.throw

/-! No operator is a line break. -/

theorem ne_newline_of_isAccessor {kind : Kind} (accessor : kind.isAccessor = true) : kind ≠ .newline := by
  rintro rfl
  cases accessor

theorem ne_newline_of_isStep {kind : Kind} (step : kind.isStep = true) : kind ≠ .newline := by
  rintro rfl
  cases step

theorem ne_newline_of_isUnary {kind : Kind} (unary : kind.isUnary = true) : kind ≠ .newline := by
  rintro rfl
  cases unary

theorem ne_newline_of_isAssignment {kind : Kind} (assignment : kind.isAssignment = true) :
    kind ≠ .newline := by
  rintro rfl
  cases assignment

theorem ne_newline_of_joins {tier : Tier} (known : tier ∈ Tier.all) {kind : Kind}
    (joins : tier.joins kind = true) : kind ≠ .newline := by
  rintro rfl
  have none : ∀ tier ∈ Tier.all, tier.joins .newline = false := by decide
  rw [none tier known] at joins
  cases joins

namespace Forms

variable {rules : Rules} (forming : rules.Forming drawn)

theorem entries {entry : Parse Expr} (each : FormsExpr drawn entry) (closing : Kind) (count : Nat)
    (start : Reader) :
    Forms drawn (Parse.entries entry closing count) start
      fun series _ => Expr.ItemsFormed drawn series.items := by
  induction count generalizing start with
  | zero => exact throw
  | succ left ih =>
    unfold Parse.entries
    apply ifCheck
    · intro _ _ _ _ _
      exact pure trivial
    · refine (each start).bind fun value stop valueFormed => accept.bind fun more stop _ => ?_
      refine slot.bind fun trailing stop trailingFormed => ?_
      split
      · exact (ih stop).bind fun others stop othersFormed =>
          pure ⟨valueFormed, trailingFormed, othersFormed⟩
      · exact pure ⟨valueFormed, trailingFormed, trivial⟩

theorem groupRest {expression : Parse Expr} (each : FormsExpr drawn expression) (count : Nat)
    (start : Reader) :
    Forms drawn (Parse.groupRest expression count) start
      fun others _ => Expr.ListFormed drawn others := by
  induction count generalizing start with
  | zero => exact throw
  | succ left ih =>
    unfold Parse.groupRest
    refine accept.bind fun closed stop _ => ?_
    split
    · exact pure trivial
    · exact (each stop).bind fun expr stop exprFormed =>
        (ih stop).bind fun others stop othersFormed => pure ⟨exprFormed, othersFormed⟩

theorem indices {expression : Parse Expr} (each : FormsExpr drawn expression) (count : Nat)
    (start : Reader) :
    Forms drawn (Parse.indices expression count) start
      fun indices _ => Expr.IndicesFormed drawn indices := by
  induction count generalizing start with
  | zero => exact pure trivial
  | succ left ih =>
    unfold Parse.indices
    apply ifSees
    · intro _ _ _ _
      refine slot.bind fun before stop beforeFormed => (each stop).bind fun index stop indexFormed => ?_
      refine accept.bind fun more stop _ => ?_
      split
      · exact (ih stop).bind fun others stop othersFormed =>
          pure ⟨beforeFormed, indexFormed, othersFormed⟩
      · exact pure ⟨beforeFormed, indexFormed, trivial⟩
    · exact pure trivial

theorem unidentified {token : Token} (formed : WordFormed drawn token) (start : Reader) :
    Forms drawn (Parse.unidentified token) start fun expr stop => expr.Pairs drawn stop := by
  unfold Parse.unidentified
  apply get
  split
  · exact slot.bind fun trailing stop trailingFormed =>
      pure ⟨⟨formed, trailingFormed⟩, fun bare => nomatch bare⟩
  · exact throw

section

include forming

theorem series (closing : Kind) (start : Reader) :
    Forms drawn (Parse.series rules closing) start
      fun series _ => Expr.ItemsFormed drawn series.items := by
  refine (entries forming.expression _ _ start).bind fun entries stop formed => ?_
  exact accept.bind fun _ stop _ => pure formed

theorem grouping (start : Reader) :
    Forms drawn (Parse.grouping rules) start fun expr stop => expr.Pairs drawn stop := by
  refine slot.bind fun afterOpen stop openFormed => ?_
  refine (forming.expression stop).bind fun first stop firstFormed => ?_
  refine (groupRest forming.expression _ stop).bind fun others stop othersFormed => ?_
  exact slot.bind fun afterClose stop closeFormed =>
    pure ⟨⟨openFormed, ⟨firstFormed, othersFormed⟩, closeFormed⟩, fun bare => nomatch bare⟩

theorem array (start : Reader) :
    Forms drawn (Parse.array rules) start fun expr stop => expr.Pairs drawn stop := by
  refine slot.bind fun afterOpen stop openFormed => ?_
  exact (series forming _ stop).bind fun elements stop formed =>
    pure ⟨⟨openFormed, formed⟩, fun bare => nomatch bare⟩

theorem primary (start : Reader) :
    Forms drawn (Parse.primary rules) start fun expr stop => expr.Pairs drawn stop := by
  refine advance.bind fun token stop given => ?_
  split
  case h_6 => exact grouping forming stop
  case h_7 => exact array forming stop
  case h_8 => exact setCanPair.bind fun _ stop off => pure ⟨trivial, fun _ => off⟩
  case h_9 kind =>
    have formed : WordFormed drawn token := ⟨given, by rw [kind]; decide⟩
    exact setCanPair.bind fun _ stop off => pure ⟨formed, fun _ => off⟩
  case h_10 kind =>
    have formed : WordFormed drawn token := ⟨given, by rw [kind]; decide⟩
    exact setCanPair.bind fun _ stop off => pure ⟨formed, fun _ => off⟩
  case h_11 noBreak _ _ => exact unidentified ⟨given, noBreak⟩ stop
  all_goals
    rename_i kind
    have formed : WordFormed drawn token := ⟨given, by rw [kind]; decide⟩
    exact slot.bind fun after stop afterFormed => pure ⟨⟨formed, afterFormed⟩, fun bare => nomatch bare⟩

theorem accesses (count : Nat) {owner : Expr} {start : Reader} (pairs : owner.Pairs drawn start) :
    Forms drawn (Parse.accesses rules count owner) start fun expr stop => expr.Pairs drawn stop := by
  induction count generalizing owner start with
  | zero => exact pure pairs
  | succ left ih =>
    unfold Parse.accesses
    apply ifSees
    · intro token rest shape fits
      refine take shape fun stop _ => slot.bind fun afterDot stop dotFormed => ?_
      refine (forming.call stop).bind fun member stop memberFormed => ?_
      refine slot.bind fun trailing stop trailingFormed => ih ?_
      exact ⟨⟨pairs.1, dotFormed, memberFormed, trailingFormed⟩, fun bare => nomatch bare⟩
    · apply ifSees
      · intro token rest shape fits
        refine take shape fun stop given => ?_
        have accessor : WordFormed drawn token := ⟨given, ne_newline_of_isAccessor fits⟩
        refine (indices forming.expression _ stop).bind fun indices stop indicesFormed => ?_
        refine accept.bind fun _ stop _ => slot.bind fun trailing stop trailingFormed => ih ?_
        exact ⟨⟨pairs.1, accessor, indicesFormed, trailingFormed⟩, fun bare => nomatch bare⟩
      · exact pure pairs

theorem arguments {callee : Expr} {start : Reader} (pairs : callee.Pairs drawn start) :
    Forms drawn (Parse.arguments rules callee) start fun expr stop => expr.Pairs drawn stop := by
  refine accept.bind fun called stop refused => ?_
  split
  · refine slot.bind fun afterOpen stop openFormed => ?_
    refine (series forming _ stop).bind fun arguments stop argumentsFormed => ?_
    exact slot.bind fun trailing stop trailingFormed =>
      pure ⟨⟨pairs.1, openFormed, argumentsFormed, trailingFormed⟩, fun bare => nomatch bare⟩
  · rename_i untaken
    rw [refused (by simpa using untaken)]
    exact pure pairs

theorem call (start : Reader) :
    Forms drawn (Parse.call rules) start fun expr stop => expr.Pairs drawn stop := by
  refine (primary forming start).bind fun callee stop pairs => ?_
  refine (arguments forming pairs).bind fun called stop pairs => ?_
  exact accesses forming _ pairs

theorem stepped (start : Reader) :
    Forms drawn (Parse.stepped rules) start fun expr stop => expr.Pairs drawn stop := by
  refine (call forming start).bind fun operand stop pairs => ?_
  apply ifCheck
  · intro token rest shape fits _
    refine take shape fun stop given => slot.bind fun afterOperator stop operatorFormed => ?_
    have operator : WordFormed drawn token := ⟨given, ne_newline_of_isStep fits⟩
    exact pure ⟨⟨pairs.1, operator, operatorFormed⟩, fun bare => nomatch bare⟩
  · exact pure pairs

theorem unary (start : Reader) :
    Forms drawn (Parse.unary rules) start fun expr stop => expr.Pairs drawn stop := by
  apply ifCheck
  · intro token rest shape fits _
    refine take shape fun stop given => slot.bind fun afterOperator stop operatorFormed => ?_
    have operator : WordFormed drawn token := ⟨given, ne_newline_of_isUnary fits⟩
    exact (forming.unary stop).bind fun operand stop formed =>
      pure ⟨⟨operator, operatorFormed, formed⟩, fun bare => nomatch bare⟩
  · exact stepped forming start

end

theorem chain {operand : Parse Expr} (each : FormsExpr drawn operand) {joins : Kind → Bool}
    (unbroken : ∀ kind, joins kind = true → kind ≠ .newline) (count : Nat) {left : Expr} (start : Reader)
    (formed : left.Formed drawn) (bare : left ≠ .newline) :
    Forms drawn (Parse.chain operand joins count left) start fun expr stop => expr.Pairs drawn stop := by
  induction count generalizing left start with
  | zero => exact pure ⟨formed, fun same => absurd same bare⟩
  | succ count ih =>
    unfold Parse.chain
    apply ifSees
    · intro token rest shape fits
      refine take shape fun stop given => slot.bind fun afterOperator stop operatorFormed => ?_
      have operator : WordFormed drawn token := ⟨given, unbroken _ fits⟩
      refine (each stop).bind fun right stop rightFormed => ih stop ?_ fun same => nomatch same
      exact ⟨formed, bare, operator, operatorFormed, rightFormed⟩
    · exact pure ⟨formed, fun same => absurd same bare⟩

section

include forming

theorem binary (tiers : List Tier) (known : ∀ tier ∈ tiers, tier ∈ Tier.all) (start : Reader) :
    Forms drawn (Parse.binary rules tiers) start fun expr stop => expr.Pairs drawn stop := by
  induction tiers generalizing start with
  | nil => exact unary forming start
  | cons tier tighter ih =>
    have tighterKnown : ∀ tier ∈ tighter, tier ∈ Tier.all :=
      fun tier member => known tier (List.mem_cons_of_mem _ member)
    have unbroken : ∀ kind, tier.joins kind = true → kind ≠ .newline :=
      fun kind => ne_newline_of_joins (known tier List.mem_cons_self)
    unfold Parse.binary
    refine (ih tighterKnown start).bind fun left stop pairs => ?_
    have bare : stop.canPair = true → left ≠ .newline := by
      rintro on rfl
      rw [pairs.2 rfl] at on
      cases on
    cases tier.side with
    | left =>
      apply get
      split
      · rename_i on
        exact chain (forming.binary tighter tighterKnown) unbroken _ stop pairs.1 (bare on)
      · exact pure pairs
    | right =>
      apply ifCheck
      · intro token rest shape fits on
        refine take shape fun stop given => slot.bind fun afterOperator stop operatorFormed => ?_
        have operator : WordFormed drawn token := ⟨given, unbroken _ fits⟩
        refine (forming.binary (tier :: tighter) known stop).bind fun right stop rightFormed => ?_
        exact pure ⟨⟨pairs.1, bare on, operator, operatorFormed, rightFormed⟩, fun same => nomatch same⟩
      · exact pure pairs

theorem ternary (start : Reader) :
    Forms drawn (Parse.ternary rules) start fun expr _ => expr.Formed drawn := by
  refine (binary forming _ (fun _ member => member) start).bind fun condition stop pairs => ?_
  refine accept.bind fun hooked stop _ => ?_
  split
  · refine slot.bind fun afterHook stop hookFormed => ?_
    refine (forming.ternary stop).bind fun whenTrue stop trueFormed => accept.bind fun _ stop _ => ?_
    refine slot.bind fun afterColon stop colonFormed => ?_
    exact (forming.ternary stop).bind fun whenFalse stop falseFormed =>
      pure ⟨pairs.1, hookFormed, trueFormed, colonFormed, falseFormed⟩
  · exact pure pairs.1

theorem functionRest (start : Reader) :
    Forms drawn (Parse.functionRest rules) start fun expr _ => expr.Formed drawn := by
  refine slot.bind fun afterKeyword stop keywordFormed => ?_
  refine (forming.expression stop).bind fun signature stop signatureFormed => ?_
  refine slot.bind fun afterSignature stop afterFormed => accept.bind fun isConstructor stop _ => ?_
  exact slot.bind fun trailing stop trailingFormed =>
    pure ⟨keywordFormed, signatureFormed, afterFormed, trailingFormed⟩

theorem lifetimeRest {operator : Token} (operatorFormed : WordFormed drawn operator) (start : Reader) :
    Forms drawn (Parse.lifetimeRest rules operator) start fun expr _ => expr.Formed drawn := by
  refine slot.bind fun afterOperator stop afterFormed => ?_
  refine (forming.expression stop).bind fun operand stop operandFormed => ?_
  exact slot.bind fun trailing stop trailingFormed =>
    pure ⟨operatorFormed, afterFormed, operandFormed, trailingFormed⟩

theorem completed {opening : Expr} (formed : opening.Formed drawn) (start : Reader) :
    Forms drawn (Parse.completed rules opening) start fun expr _ => expr.Formed drawn := by
  unfold Parse.completed
  split
  · split
    · exact functionRest forming start
    · exact lifetimeRest forming formed.1 start
    · exact lifetimeRest forming formed.1 start
    · exact pure formed
  · exact pure formed

theorem assignment (start : Reader) :
    Forms drawn (Parse.assignment rules) start fun expr _ => expr.Formed drawn := by
  refine (ternary forming start).bind fun opening stop openingFormed => ?_
  refine (completed forming openingFormed stop).bind fun target stop targetFormed => ?_
  apply ifCheck
  · intro token rest shape fits _
    refine take shape fun stop given => slot.bind fun afterOperator stop afterFormed => ?_
    have operator : WordFormed drawn token := ⟨given, ne_newline_of_isAssignment fits⟩
    exact (forming.assignment stop).bind fun value stop valueFormed =>
      pure ⟨targetFormed, operator, afterFormed, valueFormed⟩
  · exact pure targetFormed

theorem expression (start : Reader) :
    Forms drawn (Parse.expression rules) start fun expr _ => expr.Formed drawn := by
  refine setAllowUnidentified.bind fun _ stop _ => ?_
  refine (assignment forming stop).bind fun expr stop formed => ?_
  exact setCanPair.bind fun _ stop _ => setAllowUnidentified.bind fun _ stop _ => pure formed

end

end Forms

end GmlLayout
