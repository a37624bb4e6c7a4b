import GmlLayout.Proofs.Grammar.ExpressionForms

/-!
Statements and programs are formed from the tokens of their source.
-/

namespace GmlLayout

variable {drawn : Token → Prop}

theorem ne_newline_of_isVariableKeyword {kind : Kind} (keyword : Parse.isVariableKeyword kind = true) :
    kind ≠ .newline := by
  rintro rfl
  cases keyword

theorem ne_newline_of_remark {kind : Kind} {form : RemarkForm}
    (remark : RemarkForm.ofKind? kind = some form) : kind ≠ .newline := by
  rintro rfl
  cases remark

namespace Forms

theorem statementsUntil {statement : Parse Stmt} (each : FormsStmt drawn statement) (ends : Kind → Bool)
    (count : Nat) (start : Reader) :
    Forms drawn (Parse.statementsUntil statement ends count) start
      fun body _ => Stmt.ListFormed drawn body := by
  induction count generalizing start with
  | zero => exact pure trivial
  | succ left ih =>
    unfold Parse.statementsUntil
    apply ifSees
    · intro _ _ _ _
      exact (each start).bind fun stmt stop stmtFormed =>
        (ih stop).bind fun others stop othersFormed => pure ⟨stmtFormed, othersFormed⟩
    · exact pure trivial

def FormsVariables (drawn : Token → Prop) (parser : Parse (Series Variable)) : Prop :=
  ∀ start, Forms drawn parser start fun declared _ => Variable.ItemsFormed drawn declared.items

theorem variableEnd {declared : Variable} (formed : declared.Formed drawn)
    {others : Parse (Series Variable)} (further : FormsVariables drawn others) :
    FormsVariables drawn (Parse.variableEnd declared others) := by
  intro start
  refine accept.bind fun more stop _ => slot.bind fun trailing stop trailingFormed => ?_
  split
  · exact (further stop).bind fun others stop othersFormed =>
      pure (List.forall_mem_cons.mpr ⟨⟨formed, trailingFormed⟩, othersFormed⟩)
  · exact pure (List.forall_mem_singleton.mpr ⟨formed, trailingFormed⟩)

theorem notDeclared {expr : Expr} (formed : expr.Formed drawn) :
    FormsVariables drawn (Parse.notDeclared expr) := by
  intro start
  refine accept.bind fun semicolon stop _ => ?_
  have kept : (Stmt.expression expr semicolon).Formed drawn := formed
  exact (postpone kept).bind fun _ stop _ =>
    pure fun _ member => nomatch member

variable {rules : Rules} (forming : rules.Forming drawn)

include forming

theorem expressionStatement (start : Reader) :
    Forms drawn (Parse.expressionStatement rules) start fun stmt _ => stmt.Formed drawn := by
  refine (expression forming start).bind fun expr stop formed => ?_
  exact accept.bind fun semicolon stop _ => pure formed

theorem variableThen {keyword : Option Token} {afterKeyword : Trivia}
    (keywordFormed : Variable.KeywordFormed drawn keyword)
    (afterFormed : SlotFormed drawn afterKeyword) {others : Parse (Series Variable)}
    (further : FormsVariables drawn others) :
    FormsVariables drawn (Parse.variableThen rules keyword afterKeyword others) := by
  intro start
  refine (forming.expression start).bind fun target stop targetFormed => ?_
  split
  · exact variableEnd ⟨targetFormed, keywordFormed, afterFormed⟩ further stop
  · exact notDeclared targetFormed stop

theorem variableList (count : Nat) : FormsVariables drawn (Parse.variableList rules count) := by
  have none : ∀ endDelimited start, Forms drawn (Pure.pure (⟨[], endDelimited⟩ : Series Variable)) start
      fun declared _ => Variable.ItemsFormed drawn declared.items :=
    fun _ _ => pure fun _ member => nomatch member
  induction count with
  | zero => exact none true
  | succ left ih =>
    intro start
    unfold Parse.variableList
    apply ifCheck
    · intro _ _ _ _ _
      exact none true start
    · apply ifCheck
      · intro token rest shape fits _
        refine take shape fun stop given => slot.bind fun afterKeyword stop afterFormed => ?_
        have keyword : Variable.KeywordFormed drawn (some token) :=
          ⟨given, ne_newline_of_isVariableKeyword fits⟩
        exact variableThen forming keyword afterFormed ih stop
      · refine peek.bind fun kind stop same => ?_
        subst same
        split
        · exact none true _
        · have keyword : Variable.KeywordFormed drawn Option.none := trivial
          exact variableThen forming keyword (slotFormed_nil drawn) ih _
        · exact none false _

theorem declaration {start : Reader} {token : Token} {rest : List Token}
    (shape : start.rest = token :: rest) (keyword : token.kind ≠ .newline) :
    Forms drawn (Parse.declaration rules) start fun stmt _ => stmt.Formed drawn := by
  refine take shape fun stop given => slot.bind fun afterKeyword stop afterFormed => ?_
  refine (variableList forming _ stop).bind fun declared stop declaredFormed => ?_
  exact accept.bind fun semicolon stop _ => pure ⟨⟨given, keyword⟩, afterFormed, declaredFormed⟩

theorem defineRest (start : Reader) :
    Forms drawn (Parse.defineRest rules) start fun stmt _ => stmt.Formed drawn := by
  refine slot.bind fun afterKeyword stop afterFormed => ?_
  refine (forming.expression stop).bind fun name stop nameFormed => ?_
  exact (statementsUntil forming.statement _ _ stop).bind fun body stop bodyFormed =>
    pure ⟨afterFormed, nameFormed, bodyFormed⟩

theorem blockRest (start : Reader) :
    Forms drawn (Parse.blockRest rules) start fun stmt _ => stmt.Formed drawn := by
  refine slot.bind fun afterOpen stop openFormed => ?_
  refine (statementsUntil forming.statement _ _ stop).bind fun body stop bodyFormed => ?_
  exact accept.bind fun _ stop _ => accept.bind fun semicolon stop _ => pure ⟨openFormed, bodyFormed⟩

theorem conditionalRest (start : Reader) :
    Forms drawn (Parse.conditionalRest rules) start fun stmt _ => stmt.Formed drawn := by
  refine slot.bind fun afterKeyword stop afterFormed => ?_
  refine (forming.expression stop).bind fun condition stop conditionFormed => ?_
  refine (forming.statement stop).bind fun whenTrue stop trueFormed => ?_
  refine slot.bind fun between stop betweenFormed => accept.bind fun otherwise stop _ => ?_
  split
  · refine slot.bind fun afterElse stop elseFormed => ?_
    refine (forming.statement stop).bind fun whenFalse stop falseFormed => ?_
    exact accept.bind fun semicolon stop _ =>
      pure ⟨afterFormed, conditionFormed, trueFormed, betweenFormed, elseFormed, falseFormed⟩
  · exact accept.bind fun semicolon stop _ =>
      pure ⟨afterFormed, conditionFormed, trueFormed, betweenFormed, slotFormed_nil drawn⟩

theorem returnRest (start : Reader) :
    Forms drawn (Parse.returnRest rules) start fun stmt _ => stmt.Formed drawn := by
  apply ifCheck
  · intro _ _ _ _ _
    exact accept.bind fun semicolon stop _ => pure trivial
  · refine (forming.expression start).bind fun value stop valueFormed => ?_
    exact accept.bind fun semicolon stop _ => pure valueFormed

theorem doUntilRest (start : Reader) :
    Forms drawn (Parse.doUntilRest rules) start fun stmt _ => stmt.Formed drawn := by
  refine slot.bind fun afterKeyword stop afterFormed => ?_
  refine (forming.statement stop).bind fun body stop bodyFormed => ?_
  refine slot.bind fun between stop betweenFormed => accept.bind fun _ stop _ => ?_
  refine (forming.expression stop).bind fun condition stop conditionFormed => ?_
  exact accept.bind fun semicolon stop _ =>
    pure ⟨afterFormed, bodyFormed, betweenFormed, conditionFormed⟩

theorem loopRest {keyword : Token} (keywordFormed : WordFormed drawn keyword) (start : Reader) :
    Forms drawn (Parse.loopRest rules keyword) start fun stmt _ => stmt.Formed drawn := by
  refine slot.bind fun afterKeyword stop afterFormed => ?_
  refine (forming.expression stop).bind fun condition stop conditionFormed => ?_
  refine (forming.statement stop).bind fun body stop bodyFormed => ?_
  exact accept.bind fun semicolon stop _ =>
    pure ⟨keywordFormed, afterFormed, conditionFormed, bodyFormed⟩

theorem branchRest {label : Option Expr} {afterKeyword : Trivia} (labelFormed : OptionFormed drawn label)
    (afterFormed : SlotFormed drawn afterKeyword) (start : Reader) :
    Forms drawn (Parse.branchRest rules label afterKeyword) start
      fun branch _ => Stmt.CasesFormed drawn [branch] := by
  refine accept.bind fun _ stop _ => slot.bind fun afterColon stop colonFormed => ?_
  exact (statementsUntil forming.statement _ _ stop).bind fun body stop bodyFormed =>
    pure ⟨labelFormed, afterFormed, colonFormed, bodyFormed, trivial⟩

theorem branch (start : Reader) :
    Forms drawn (Parse.branch rules) start fun branch _ => Stmt.CasesFormed drawn [branch] := by
  refine advance.bind fun token stop _ => ?_
  split
  · refine slot.bind fun afterKeyword stop afterFormed => ?_
    refine (forming.expression stop).bind fun label stop labelFormed => ?_
    have isLabel : OptionFormed drawn (some label) := labelFormed
    exact branchRest forming isLabel afterFormed stop
  · refine slot.bind fun afterKeyword stop afterFormed => ?_
    have noLabel : OptionFormed drawn none := trivial
    exact branchRest forming noLabel afterFormed stop
  · exact throw

theorem branches (count : Nat) (start : Reader) :
    Forms drawn (Parse.branches rules count) start fun cases _ => Stmt.CasesFormed drawn cases := by
  induction count generalizing start with
  | zero => exact pure trivial
  | succ left ih =>
    unfold Parse.branches
    apply ifSees
    · intro _ _ _ _
      refine (branch forming start).bind fun first stop firstFormed => ?_
      obtain ⟨label, keyword, colon, body, _⟩ := firstFormed
      exact (ih stop).bind fun others stop othersFormed =>
        pure ⟨label, keyword, colon, body, othersFormed⟩
    · exact pure trivial

theorem switchRest (start : Reader) :
    Forms drawn (Parse.switchRest rules) start fun stmt _ => stmt.Formed drawn := by
  refine slot.bind fun afterKeyword stop afterFormed => ?_
  refine (forming.expression stop).bind fun subject stop subjectFormed => accept.bind fun _ stop _ => ?_
  refine slot.bind fun afterOpen stop openFormed => ?_
  refine (branches forming _ stop).bind fun cases stop casesFormed => accept.bind fun _ stop _ => ?_
  exact accept.bind fun semicolon stop _ => pure ⟨afterFormed, subjectFormed, openFormed, casesFormed⟩

def StartFormed (drawn : Token → Prop) : Option Stmt → Prop
  | none => True
  | some start => start.Formed drawn

theorem forStart (start : Reader) :
    Forms drawn (Parse.forStart rules) start fun first _ => StartFormed drawn first := by
  refine accept.bind fun closed stop _ => ?_
  split
  · exact pure trivial
  · apply ifCheck
    · intro token rest shape fits _
      have keyword : token.kind ≠ .newline := by
        rw [of_decide_eq_true fits]
        decide
      exact (declaration forming shape keyword).bind fun first stop formed => pure formed
    · refine (forming.expression stop).bind fun expr stop formed => ?_
      exact accept.bind fun semicolon stop _ => pure formed

theorem forCondition (start : Reader) :
    Forms drawn (Parse.forCondition rules) start fun condition _ => OptionFormed drawn condition := by
  refine accept.bind fun closed stop _ => ?_
  split
  · exact pure trivial
  · exact (forming.expression stop).bind fun condition stop formed => pure formed

theorem forIncrement (start : Reader) :
    Forms drawn (Parse.forIncrement rules) start fun increment _ => OptionFormed drawn increment := by
  apply ifCheck
  · intro _ _ _ _ _
    exact pure trivial
  · exact (forming.expression start).bind fun increment stop formed => pure formed

theorem forRest (start : Reader) :
    Forms drawn (Parse.forRest rules) start fun stmt _ => stmt.Formed drawn := by
  refine slot.bind fun afterKeyword stop afterFormed => accept.bind fun _ stop _ => ?_
  refine slot.bind fun afterOpen stop openFormed => ?_
  refine (forStart forming stop).bind fun first stop firstFormed => ?_
  refine slot.bind fun afterStart stop startFormed => ?_
  refine (forCondition forming stop).bind fun condition stop conditionFormed => ?_
  refine accept.bind fun _ stop _ => slot.bind fun afterCondition stop afterConditionFormed => ?_
  refine (forIncrement forming stop).bind fun increment stop incrementFormed => ?_
  refine accept.bind fun _ stop _ => slot.bind fun afterIncrement stop afterIncrementFormed => ?_
  refine accept.bind fun _ stop _ => slot.bind fun afterClose stop closeFormed => ?_
  refine (forming.statement stop).bind fun body stop bodyFormed => accept.bind fun semicolon stop _ => ?_
  cases first with
  | none =>
    exact pure ⟨afterFormed, openFormed, startFormed, conditionFormed, afterConditionFormed,
      incrementFormed, afterIncrementFormed, closeFormed, bodyFormed⟩
  | some first =>
    exact pure ⟨afterFormed, openFormed, firstFormed, startFormed, conditionFormed,
      afterConditionFormed, incrementFormed, afterIncrementFormed, closeFormed, bodyFormed⟩

theorem enumerationRest (start : Reader) :
    Forms drawn (Parse.enumerationRest rules) start fun stmt _ => stmt.Formed drawn := by
  refine slot.bind fun afterKeyword stop afterFormed => ?_
  refine (forming.expression stop).bind fun name stop nameFormed => accept.bind fun _ stop _ => ?_
  refine slot.bind fun afterOpen stop openFormed => ?_
  refine (series forming _ stop).bind fun members stop membersFormed => ?_
  exact accept.bind fun semicolon stop _ => pure ⟨afterFormed, nameFormed, openFormed, membersFormed⟩

theorem opened {token : Token} (given : drawn token) {rest : Parse Stmt}
    (opens : Parse.opened rules token = some rest) (start : Reader) :
    Forms drawn rest start fun stmt _ => stmt.Formed drawn := by
  unfold Parse.opened at opens
  split at opens
  case h_6 =>
    cases opens
    exact accept.bind fun semicolon stop _ => pure trivial
  case h_7 =>
    cases opens
    exact accept.bind fun semicolon stop _ => pure trivial
  case h_9 kind =>
    cases opens
    exact loopRest forming ⟨given, by rw [kind]; decide⟩ start
  case h_10 kind =>
    cases opens
    exact loopRest forming ⟨given, by rw [kind]; decide⟩ start
  case h_11 kind =>
    cases opens
    exact loopRest forming ⟨given, by rw [kind]; decide⟩ start
  case h_14 =>
    obtain ⟨form, remark, rfl⟩ := Option.map_eq_some_iff.mp opens
    exact pure ⟨given, ne_newline_of_remark remark⟩
  all_goals cases opens
  · exact defineRest forming start
  · exact blockRest forming start
  · exact enumerationRest forming start
  · exact conditionalRest forming start
  · exact returnRest forming start
  · exact doUntilRest forming start
  · exact switchRest forming start
  · exact forRest forming start

theorem statement (start : Reader) :
    Forms drawn (Parse.statement rules) start fun stmt _ => stmt.Formed drawn := by
  apply get
  split
  · exact expressionStatement forming start
  · rename_i token head
    obtain ⟨rest, shape⟩ := List.head?_eq_some_iff.mp head
    split
    · rename_i keyword
      exact declaration forming shape (ne_newline_of_isVariableKeyword keyword)
    · split
      · rename_i form opens
        exact take shape fun stop given => opened forming given opens stop
      · exact expressionStatement forming start

end Forms

namespace Rules

theorem Forming.next {rules : Rules} (forming : rules.Forming drawn) : rules.next.Forming drawn where
  statement := Forms.statement forming
  expression := Forms.expression forming
  assignment := Forms.assignment forming
  ternary := Forms.ternary forming
  binary tiers known start := (Forms.binary forming tiers known start).weaken fun _ _ pairs => pairs.1
  unary start := (Forms.unary forming start).weaken fun _ _ pairs => pairs.1
  call start := (Forms.call forming start).weaken fun _ _ pairs => pairs.1

theorem forming_upTo (bound : Nat) : (upTo bound).Forming drawn := by
  induction bound with
  | zero => exact forming_empty
  | succ bound ih => exact ih.next

end Rules

theorem Forms.program {statement : Parse Stmt} (each : FormsStmt drawn statement) (count : Nat)
    (start : Reader) :
    Forms drawn (Parse.program statement count) start
      fun program _ => Stmt.ListFormed drawn program := by
  induction count generalizing start with
  | zero => exact pure trivial
  | succ left ih =>
    unfold Parse.program
    apply ifSees
    · intro _ _ _ _
      refine setCanPair.bind fun _ stop _ => (each stop).bind fun stmt stop stmtFormed => ?_
      refine takeLeftovers.bind fun leftovers stop leftoversFormed => ?_
      refine (ih stop).bind fun others stop othersFormed => pure ⟨stmtFormed, ?_⟩
      rw [Stmt.listFormed_iff] at leftoversFormed othersFormed ⊢
      intro stmt member
      obtain member | member := List.mem_append.mp member
      · exact leftoversFormed stmt member
      · exact othersFormed stmt member
    · exact pure trivial

theorem parseTokens_formed {tokens : List Token} {program : List Stmt} {stop : Reader}
    (read : parseTokens tokens = .ok program stop) : Stmt.ListFormed (· ∈ tokens) program := by
  have start : Reader.Formed (· ∈ tokens) { rest := tokens } := ⟨fun _ member => member, trivial⟩
  exact (Forms.program (Rules.forming_upTo _).statement _ _ start _ _ read).2

theorem parse_formed {source : String} {program : List Stmt} (parsed : parse source = .ok program) :
    Stmt.ListFormed (· ∈ scan source) program := by
  unfold parse at parsed
  split at parsed
  · rename_i result stop ran
    cases parsed
    exact parseTokens_formed ran
  · cases parsed

end GmlLayout
