import GmlLayout.Proofs.Grammar.ExpressionYield

/-!
Every statement parser yields the leaves of the statement it returns. Together with the expressions this
closes the circle: the rules for inputs of any length are faithful.
-/

namespace GmlLayout

def YieldsStmt (parser : Parse Stmt) : Prop :=
  ∀ start sofar, Yields parser start sofar fun stmt => sofar ++ content stmt.leaves

namespace Parse

variable {rules : Rules}

theorem isDotted_of_isVariableKeyword {kind : Kind} (variable_ : isVariableKeyword kind = true) :
    kind.isDotted = false := by
  cases kind <;> first | rfl | cases variable_

theorem isDotted_of_remark {kind : Kind} {form : RemarkForm}
    (remark : RemarkForm.ofKind? kind = some form) : kind.isDotted = false := by
  cases kind <;> first | rfl | cases remark

theorem semicolon_yields {start : Reader} {sofar : List Leaf} :
    Yields semicolon start sofar fun _ => sofar :=
  Yields.acceptSymbol

theorem expressionStatement_yields (faithful : rules.Faithful) :
    YieldsStmt (expressionStatement rules) := by
  intro start sofar
  unfold expressionStatement
  apply (expression_yields faithful start sofar).bind
  intro expr stop _
  apply semicolon_yields.bind
  intro written stop _
  exact Yields.pure rfl

theorem statementsUntil_yields {statement : Parse Stmt} (yields : YieldsStmt statement)
    (ends : Kind → Bool) (count : Nat) (start : Reader) (sofar : List Leaf) :
    Yields (statementsUntil statement ends count) start sofar
      fun stmts => sofar ++ content (Stmt.listLeaves stmts) := by
  induction count generalizing start sofar with
  | zero => exact Yields.pure (by simp [Stmt.listLeaves])
  | succ left ih =>
    unfold statementsUntil
    apply Yields.ifSees
    · intro _ _ _ _
      apply (yields start sofar).bind
      intro stmt stop _
      apply (ih stop _).bind
      intro others stop _
      exact Yields.pure (by simp [Stmt.listLeaves])
    · exact Yields.pure (by simp [Stmt.listLeaves])

theorem variableEnd_yields {others : Parse (Series Variable)}
    (yields : ∀ start sofar, Yields others start sofar
      fun series => sofar ++ content (variableLeaves series.endDelimited series.items))
    (declared : Variable) (start : Reader) :
    Yields (variableEnd declared others) start
      (content declared.keywordLeaves ++ content declared.target.leaves)
      fun series => content (variableLeaves series.endDelimited series.items) := by
  unfold variableEnd
  apply Yields.acceptSymbol.bind
  intro more stop _
  apply Yields.slot.bind
  intro trailing stop _
  split
  · apply (yields stop _).bind
    intro others stop _
    exact Yields.pure (by simp [variableLeaves])
  · exact Yields.pure (by simp [variableLeaves])

/-- What was read before a statement is kept for later moves with it, and its order no longer counts. -/
theorem notDeclared_took {expr : Expr} {start middle stop : Reader} {series : Series Variable}
    (lost : ∃ postponed passed, middle.leftovers = start.leftovers ++ postponed ∧
      Passes true start.rest passed middle.rest ∧
      passed.Perm (content expr.leaves ++ content (Stmt.listLeaves postponed)))
    (done : notDeclared expr middle = .ok series stop) :
    series = ⟨[], true⟩ ∧ Took start stop [] := by
  obtain ⟨postponed, passed, grown, passes, perm⟩ := lost
  obtain ⟨written, afterSemicolon, ran, rest⟩ := bind_eq_ok done
  have unmarked : Yields semicolon middle [] fun _ => [] := semicolon_yields
  obtain ⟨added, split, took⟩ := unmarked written afterSemicolon ran
  cases rest
  obtain ⟨later, passed', grown', passes', perm', _⟩ := took
  refine ⟨rfl, postponed ++ later ++ [.expression expr written], passed ++ passed', ?_, ?_, ?_, ?_⟩
  · simp [grown', grown]
  · have broad : Passes true middle.rest passed' afterSemicolon.rest :=
      passes'.broaden fun _ => rfl
    exact (passes.append broad).broaden fun _ => by simp
  · obtain rfl : added = [] := by simpa using split.symm
    simp only [listLeaves_append, content_append, Stmt.listLeaves, Stmt.leaves, List.append_nil,
      List.nil_append] at perm' ⊢
    calc (passed ++ passed').Perm _ := perm.append perm'
      List.Perm _ _ := by
        rw [List.append_assoc]
        exact List.perm_append_comm
  · intro none
    simp at none

/-- The keyword in front of the variable has been passed between `start` and `middle`. It becomes part of
the variable, or it is lost when the expression declares nothing. -/
theorem variableThen_took (faithful : rules.Faithful) {keyword : Option Token}
    {afterKeyword : Trivia} {others : Parse (Series Variable)}
    (yields : ∀ start sofar, Yields others start sofar
      fun series => sofar ++ content (variableLeaves series.endDelimited series.items))
    {start middle stop : Reader} {series : Series Variable}
    (same : middle.leftovers = start.leftovers)
    (kept : ∀ target, Passes false start.rest
      (content (Variable.keywordLeaves ⟨target, keyword, afterKeyword⟩)) middle.rest)
    (lost : Passes true start.rest [] middle.rest)
    (done : variableThen rules keyword afterKeyword others middle = .ok series stop) :
    Took start stop (content (variableLeaves series.endDelimited series.items)) := by
  unfold variableThen at done
  obtain ⟨target, afterTarget, ran, rest⟩ := bind_eq_ok done
  obtain ⟨added, split, took⟩ := faithful.expression middle [] target afterTarget ran
  obtain rfl : content target.leaves = added := by simpa using split
  by_cases declarable : target.isDeclarable = true
  · rw [if_pos declarable] at rest
    obtain ⟨added, split, took'⟩ := variableEnd_yields yields _ afterTarget series stop rest
    have keywordTook := Took.of_passes same (kept target)
    have whole := (keywordTook.append took).append took'
    rwa [← split] at whole
  · rw [if_neg declarable] at rest
    obtain ⟨postponed, passed, grown, passes, perm, _⟩ := took
    have broad : Passes true middle.rest passed afterTarget.rest := passes.broaden fun _ => rfl
    obtain ⟨rfl, took⟩ := notDeclared_took
      ⟨postponed, passed, by rw [grown, same], lost.append broad, perm⟩ rest
    exact took

theorem variableList_yields (faithful : rules.Faithful) (count : Nat) (start : Reader)
    (sofar : List Leaf) :
    Yields (variableList rules count) start sofar
      fun series => sofar ++ content (variableLeaves series.endDelimited series.items) := by
  induction count generalizing start sofar with
  | zero => exact Yields.pure (by simp [variableLeaves])
  | succ left ih =>
    unfold variableList
    apply Yields.ifCheck
    · intro _ _ _ _
      exact Yields.pure (by simp [variableLeaves])
    · apply Yields.ifCheck
      · intro keyword rest shape fits series stop done
        obtain ⟨token, afterToken, ran, done⟩ := bind_eq_ok done
        obtain ⟨rest', shape', rfl⟩ := advance_run ran
        obtain ⟨rfl, rfl⟩ := List.cons.inj (shape.symm.trans shape')
        obtain ⟨afterKeyword, middle, ran, done⟩ := bind_eq_ok done
        cases ran
        refine ⟨_, rfl, variableThen_took faithful ih ?_ ?_ ?_ done⟩
        · rfl
        · intro target
          rw [shape]
          have undotted : keyword.kind.isDotted = false := isDotted_of_isVariableKeyword fits
          have behind : Passes false rest (slotLeaves (rest.takeWhile (·.kind.isTrivia))) _ :=
            Passes.slot (fun _ => .trivia) rest
          simpa [Variable.keywordLeaves] using Passes.read (.token undotted) behind
        · rw [shape]
          simpa using Passes.opened (.repeated fits rfl) (Passes.done)
      · apply Yields.peek.bind
        intro kind stop _
        split
        · exact Yields.pure (by simp [variableLeaves])
        · intro series stop done
          refine ⟨_, rfl, variableThen_took faithful ih rfl ?_ .done done⟩
          intro target
          exact .done
        · exact Yields.pure (by simp [variableLeaves])

theorem declaration_yields (faithful : rules.Faithful) {start : Reader} {sofar : List Leaf}
    {keyword : Token} {rest : List Token} (shape : start.rest = keyword :: rest)
    (fits : isVariableKeyword keyword.kind = true) :
    Yields (declaration rules) start sofar fun stmt => sofar ++ content stmt.leaves := by
  unfold declaration
  apply Yields.take shape (.token (isDotted_of_isVariableKeyword fits))
  intro stop
  apply Yields.slot.bind
  intro afterKeyword stop _
  apply (variableList_yields faithful _ stop _).bind
  intro declared stop _
  apply semicolon_yields.bind
  intro written stop _
  exact Yields.pure (by simp [Stmt.leaves])

theorem defineRest_yields (faithful : rules.Faithful) : YieldsStmt (defineRest rules) := by
  intro start sofar
  unfold defineRest
  apply Yields.slot.bind
  intro afterKeyword stop _
  apply (faithful.expression stop _).bind
  intro name stop _
  apply (statementsUntil_yields faithful.statement _ _ stop _).bind
  intro body stop _
  exact Yields.pure (by simp [Stmt.leaves])

theorem blockRest_yields (faithful : rules.Faithful) : YieldsStmt (blockRest rules) := by
  intro start sofar
  unfold blockRest
  apply Yields.slot.bind
  intro afterOpen stop _
  apply (statementsUntil_yields faithful.statement _ _ stop _).bind
  intro body stop _
  apply Yields.acceptSymbol.bind
  intro _ stop _
  apply semicolon_yields.bind
  intro written stop _
  exact Yields.pure (by simp [Stmt.leaves])

/-- The word `if` has been read when this is asked for; so have the words of the statements below. -/
theorem conditionalRest_yields (faithful : rules.Faithful) (start : Reader) (sofar : List Leaf) :
    Yields (conditionalRest rules) start (sofar ++ [.word .ifWord])
      fun stmt => sofar ++ content stmt.leaves := by
  unfold conditionalRest
  apply Yields.slot.bind
  intro afterKeyword stop _
  apply (faithful.expression stop _).bind
  intro condition stop _
  apply (faithful.statement stop _).bind
  intro whenTrue stop _
  apply Yields.slot.bind
  intro between stop _
  apply (Yields.acceptWord rfl).bind
  intro otherwise stop _
  split
  · apply Yields.slot.bind
    intro afterElse stop _
    apply (faithful.statement stop _).bind
    intro whenFalse stop _
    apply semicolon_yields.bind
    intro written stop _
    exact Yields.pure (by simp_all [Stmt.leaves])
  · apply semicolon_yields.bind
    intro written stop _
    exact Yields.pure (by simp_all [Stmt.leaves])

theorem returnRest_yields (faithful : rules.Faithful) (start : Reader) (sofar : List Leaf) :
    Yields (returnRest rules) start (sofar ++ [.word .returnWord])
      fun stmt => sofar ++ content stmt.leaves := by
  unfold returnRest
  apply Yields.ifCheck
  · intro _ _ _ _
    apply semicolon_yields.bind
    intro written stop _
    exact Yields.pure (by simp [Stmt.leaves, optionLeaves])
  · apply (faithful.expression start _).bind
    intro value stop _
    apply semicolon_yields.bind
    intro written stop _
    exact Yields.pure (by simp [Stmt.leaves, optionLeaves])

theorem loopRest_yields (faithful : rules.Faithful) (keyword : Token) (start : Reader)
    (sofar : List Leaf) :
    Yields (loopRest rules keyword) start (sofar ++ [.token keyword])
      fun stmt => sofar ++ content stmt.leaves := by
  unfold loopRest
  apply Yields.slot.bind
  intro afterKeyword stop _
  apply (faithful.expression stop _).bind
  intro condition stop _
  apply (faithful.statement stop _).bind
  intro body stop _
  apply semicolon_yields.bind
  intro written stop _
  exact Yields.pure (by simp [Stmt.leaves])

theorem until_yields (start : Reader) (sofar : List Leaf) :
    Yields (accept (.keyword .untilWord)) start sofar fun _ => sofar ++ [.word .untilWord] := by
  intro taken stop done
  have accepted : Yields (accept (.keyword .untilWord)) start sofar
      fun taken => sofar ++ if taken then [.word .untilWord] else [] := Yields.acceptWord rfl
  obtain ⟨added, split, took⟩ := accepted taken stop done
  refine ⟨[.word .untilWord], rfl, ?_⟩
  obtain rfl : (if taken then [.word .untilWord] else []) = added := by simpa using split
  cases taken with
  | true => exact took
  | false =>
    obtain ⟨postponed, passed, grown, passes, perm, same⟩ := took
    refine ⟨postponed, .word .untilWord :: passed, grown, .supplied passes, ?_, ?_⟩
    · simpa using perm
    · intro none
      simp [same none]

theorem doUntilRest_yields (faithful : rules.Faithful) (start : Reader) (sofar : List Leaf) :
    Yields (doUntilRest rules) start (sofar ++ [.word .doWord])
      fun stmt => sofar ++ content stmt.leaves := by
  unfold doUntilRest
  apply Yields.slot.bind
  intro afterKeyword stop _
  apply (faithful.statement stop _).bind
  intro body stop _
  apply Yields.slot.bind
  intro between stop _
  apply (until_yields stop _).bind
  intro _ stop _
  apply (faithful.expression stop _).bind
  intro condition stop _
  apply semicolon_yields.bind
  intro written stop _
  exact Yields.pure (by simp [Stmt.leaves])

theorem branchRest_yields (faithful : rules.Faithful) (label : Option Expr) (afterKeyword : Trivia)
    (start : Reader) (sofar : List Leaf) :
    Yields (branchRest rules label afterKeyword) start
      (sofar ++ content (labelLeaves label afterKeyword))
      fun branch => sofar ++ content (Stmt.caseLeaves [branch]) := by
  unfold branchRest
  apply Yields.acceptSymbol.bind
  intro _ stop _
  apply Yields.slot.bind
  intro afterColon stop _
  apply (statementsUntil_yields faithful.statement _ _ stop _).bind
  intro body stop _
  exact Yields.pure (by simp [Stmt.caseLeaves])

theorem branch_yields (faithful : rules.Faithful) (start : Reader) (sofar : List Leaf) :
    Yields (branch rules) start sofar fun branch => sofar ++ content (Stmt.caseLeaves [branch]) := by
  unfold branch
  apply Yields.advance
  intro token rest _
  split
  · rename_i kind
    refine ⟨[.word .caseWord], .word kind rfl, Yields.slot.bind fun afterKeyword stop _ => ?_⟩
    apply (faithful.expression stop _).bind
    intro label stop _
    simpa [labelLeaves] using branchRest_yields faithful (some label) afterKeyword stop sofar
  · rename_i kind
    refine ⟨[.word .defaultWord], .word kind rfl, ?_⟩
    apply (Yields.slotAs fun _ => .unwritten).bind
    intro afterKeyword stop _
    simpa [labelLeaves] using branchRest_yields faithful none afterKeyword stop sofar
  · obtain ⟨leaf, one⟩ := Reads.some token
    exact ⟨leaf, one, Yields.throw⟩

theorem branches_yields (faithful : rules.Faithful) (count : Nat) (start : Reader)
    (sofar : List Leaf) :
    Yields (branches rules count) start sofar
      fun cases => sofar ++ content (Stmt.caseLeaves cases) := by
  induction count generalizing start sofar with
  | zero => exact Yields.pure (by simp [Stmt.caseLeaves])
  | succ left ih =>
    unfold branches
    apply Yields.ifSees
    · intro _ _ _ _
      apply (branch_yields faithful start sofar).bind
      intro first stop _
      apply (ih stop _).bind
      intro others stop _
      exact Yields.pure (by simp [Stmt.caseLeaves])
    · exact Yields.pure (by simp [Stmt.caseLeaves])

theorem switchRest_yields (faithful : rules.Faithful) (start : Reader) (sofar : List Leaf) :
    Yields (switchRest rules) start (sofar ++ [.word .switchWord])
      fun stmt => sofar ++ content stmt.leaves := by
  unfold switchRest
  apply Yields.slot.bind
  intro afterKeyword stop _
  apply (faithful.expression stop _).bind
  intro subject stop _
  apply Yields.acceptSymbol.bind
  intro _ stop _
  apply Yields.slot.bind
  intro afterOpen stop _
  apply (branches_yields faithful _ stop _).bind
  intro cases stop _
  apply Yields.acceptSymbol.bind
  intro _ stop _
  apply semicolon_yields.bind
  intro written stop _
  exact Yields.pure (by simp [Stmt.leaves])

def stmtLeaves : Option Stmt → List Leaf
  | none => []
  | some stmt => stmt.leaves

theorem forStart_yields (faithful : rules.Faithful) (start : Reader) (sofar : List Leaf) :
    Yields (forStart rules) start sofar fun first => sofar ++ content (stmtLeaves first) := by
  unfold forStart
  apply semicolon_yields.bind
  intro empty stop _
  split
  · exact Yields.pure (by simp [stmtLeaves])
  · apply Yields.ifCheck
    · intro token rest shape fits
      have kind : token.kind = .keyword .varWord := of_decide_eq_true fits
      apply (declaration_yields faithful shape (by rw [kind]; rfl)).bind
      intro first stop _
      exact Yields.pure rfl
    · apply (faithful.expression stop _).bind
      intro expr stop _
      apply semicolon_yields.bind
      intro written stop _
      exact Yields.pure rfl

theorem forCondition_yields (faithful : rules.Faithful) (start : Reader) (sofar : List Leaf) :
    Yields (forCondition rules) start sofar fun expr => sofar ++ content (optionLeaves expr) := by
  unfold forCondition
  apply semicolon_yields.bind
  intro empty stop _
  split
  · exact Yields.pure (by simp [optionLeaves])
  · apply (faithful.expression stop _).bind
    intro expr stop _
    exact Yields.pure rfl

theorem forIncrement_yields (faithful : rules.Faithful) (start : Reader) (sofar : List Leaf) :
    Yields (forIncrement rules) start sofar fun expr => sofar ++ content (optionLeaves expr) := by
  unfold forIncrement
  apply Yields.ifCheck
  · intro _ _ _ _
    exact Yields.pure (by simp [optionLeaves])
  · apply (faithful.expression start _).bind
    intro expr stop _
    exact Yields.pure rfl

theorem forRest_yields (faithful : rules.Faithful) (start : Reader) (sofar : List Leaf) :
    Yields (forRest rules) start (sofar ++ [.word .forWord])
      fun stmt => sofar ++ content stmt.leaves := by
  unfold forRest
  apply Yields.slot.bind
  intro afterKeyword stop _
  apply Yields.acceptSymbol.bind
  intro _ stop _
  apply Yields.slot.bind
  intro afterOpen stop _
  apply (forStart_yields faithful stop _).bind
  intro first stop _
  apply Yields.slot.bind
  intro afterStart stop _
  apply (forCondition_yields faithful stop _).bind
  intro condition stop _
  apply semicolon_yields.bind
  intro _ stop _
  apply Yields.slot.bind
  intro afterCondition stop _
  apply (forIncrement_yields faithful stop _).bind
  intro increment stop _
  apply semicolon_yields.bind
  intro _ stop _
  apply Yields.slot.bind
  intro afterIncrement stop _
  apply Yields.acceptSymbol.bind
  intro _ stop _
  apply Yields.slot.bind
  intro afterClose stop _
  apply (faithful.statement stop _).bind
  intro body stop _
  apply semicolon_yields.bind
  intro written stop _
  apply Yields.pure
  cases first <;> simp [Stmt.leaves, stmtLeaves]

theorem enumerationRest_yields (faithful : rules.Faithful) (start : Reader) (sofar : List Leaf) :
    Yields (enumerationRest rules) start (sofar ++ [.word .enumWord])
      fun stmt => sofar ++ content stmt.leaves := by
  unfold enumerationRest
  apply Yields.slot.bind
  intro afterKeyword stop _
  apply (faithful.expression stop _).bind
  intro name stop _
  apply Yields.acceptSymbol.bind
  intro _ stop _
  apply Yields.slot.bind
  intro afterOpen stop _
  apply (series_yields faithful _ stop _).bind
  intro members stop _
  apply semicolon_yields.bind
  intro written stop _
  exact Yields.pure (by simp [Stmt.leaves])

/-- What the first token of a special form becomes, and what the rest of the form yields after it. -/
theorem opened_yields_rest (faithful : rules.Faithful) {token : Token} {rest : Parse Stmt}
    (found : opened rules token = some rest) :
    ∃ leaf, Reads token leaf ∧ ∀ start sofar, Yields rest start (sofar ++ leaf)
      fun stmt => sofar ++ content stmt.leaves := by
  unfold opened at found
  split at found
  case h_1 kind =>
    cases found
    refine ⟨[], .skipped (by rw [kind]; rfl), fun start sofar => ?_⟩
    simpa using defineRest_yields faithful start sofar
  case h_2 kind =>
    cases found
    refine ⟨[], .skipped (by rw [kind]; rfl), fun start sofar => ?_⟩
    simpa using blockRest_yields faithful start sofar
  case h_3 kind => cases found; exact ⟨_, .word kind rfl, enumerationRest_yields faithful⟩
  case h_4 kind => cases found; exact ⟨_, .word kind rfl, conditionalRest_yields faithful⟩
  case h_5 kind => cases found; exact ⟨_, .word kind rfl, returnRest_yields faithful⟩
  case h_6 kind =>
    cases found
    refine ⟨_, .word kind rfl, fun start sofar => semicolon_yields.bind fun _ _ _ => ?_⟩
    exact Yields.pure (by simp [Stmt.leaves])
  case h_7 kind =>
    cases found
    refine ⟨_, .word kind rfl, fun start sofar => semicolon_yields.bind fun _ _ _ => ?_⟩
    exact Yields.pure (by simp [Stmt.leaves])
  case h_8 kind => cases found; exact ⟨_, .word kind rfl, doUntilRest_yields faithful⟩
  case h_9 kind =>
    cases found
    exact ⟨_, .token (by rw [kind]; rfl), loopRest_yields faithful token⟩
  case h_10 kind =>
    cases found
    exact ⟨_, .token (by rw [kind]; rfl), loopRest_yields faithful token⟩
  case h_11 kind =>
    cases found
    exact ⟨_, .token (by rw [kind]; rfl), loopRest_yields faithful token⟩
  case h_12 kind => cases found; exact ⟨_, .word kind rfl, switchRest_yields faithful⟩
  case h_13 kind => cases found; exact ⟨_, .word kind rfl, forRest_yields faithful⟩
  case h_14 =>
    obtain ⟨form, remark, rfl⟩ := Option.map_eq_some_iff.mp found
    refine ⟨[.token token], .token (isDotted_of_remark remark), fun start sofar => ?_⟩
    exact Yields.pure (by simp [Stmt.leaves])

theorem statement_yields (faithful : rules.Faithful) : YieldsStmt (statement rules) := by
  intro start sofar
  unfold statement
  apply Yields.get
  split
  · exact expressionStatement_yields faithful start sofar
  · rename_i token head
    obtain ⟨rest, shape⟩ := List.head?_eq_some_iff.mp head
    split
    · rename_i fits
      exact declaration_yields faithful shape fits
    · split
      · rename_i form found
        obtain ⟨leaf, one, yields⟩ := opened_yields_rest faithful found
        exact Yields.take shape one fun stop => yields stop sofar
      · exact expressionStatement_yields faithful start sofar

end Parse

namespace Rules

theorem Faithful.next {rules : Rules} (faithful : rules.Faithful) : rules.next.Faithful where
  statement := Parse.statement_yields faithful
  expression := Parse.expression_yields faithful
  assignment := Parse.assignment_yields faithful
  ternary := Parse.ternary_yields faithful
  binary := Parse.binary_yields faithful
  unary := Parse.unary_yields faithful
  call := Parse.call_yields faithful

theorem faithful_upTo (bound : Nat) : (upTo bound).Faithful := by
  induction bound with
  | zero => exact faithful_empty
  | succ bound ih => exact ih.next

end Rules

end GmlLayout
