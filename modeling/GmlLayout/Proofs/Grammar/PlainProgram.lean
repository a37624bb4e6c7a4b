import GmlLayout.Proofs.Grammar.PlainParse

/-!
Programs of plain expressions are read back from their tokens. Every expression is followed by a
semicolon, and line breaks may stand between two of them, which are read as statements of their own.
-/

namespace GmlLayout

open Parse

variable {rules : Rules} {token : Token} {rest : List Token} {allowed : Bool}

/-- A reader in front of the tokens, with pairing off and nothing postponed. -/
def Reader.paused (rest : List Token) (allowed : Bool) : Reader :=
  ⟨rest, false, allowed, []⟩

def Kind.continuesBreak (kind : Kind) : Bool :=
  kind = .symbol .dot || kind.isAccessor

theorem accesses_paused (ends : Ends Kind.continuesBreak rest) (owner : Expr) (left : Nat) :
    accesses rules left owner (.paused rest allowed) = .ok owner (.paused rest allowed) := by
  cases left with
  | zero => rfl
  | succ left =>
    have noDot := ends.or_left.any_head?
    have noAccessor := ends.or_right.any_head?
    unfold accesses
    rw [bind_of_ok (sees_run _ _), Reader.paused]
    simp only [noDot]
    rw [if_neg (by decide), bind_of_ok (sees_run _ _)]
    simp only [noAccessor]
    rfl

theorem call_lineBreak (isBreak : token.kind = .newline) (ends : Ends Kind.continuesBreak rest) :
    Parse.call rules (.before (token :: rest) allowed) = .ok .newline (.paused rest allowed) := by
  have first : primary rules (.before (token :: rest) allowed) =
      .ok .newline (.paused rest allowed) := by
    obtain ⟨kind, payload, line, column⟩ := token
    cases isBreak
    rfl
  have second : arguments rules .newline (.paused rest allowed) =
      .ok .newline (.paused rest allowed) := rfl
  rw [Parse.call, bind_of_ok first, bind_of_ok second]
  exact accesses_paused ends _ _

theorem binary_lineBreak (isBreak : token.kind = .newline) (ends : Ends Kind.continuesBreak rest)
    (tiers : List Tier) :
    binary rules tiers (.before (token :: rest) allowed) = .ok .newline (.paused rest allowed) := by
  induction tiers with
  | nil =>
    have unsigned : check Kind.isUnary (.before (token :: rest) allowed) =
        .ok false (.before (token :: rest) allowed) := by
      show EStateM.Result.ok token.kind.isUnary _ = _
      rw [isBreak]
      rfl
    rw [binary, Parse.unary, bind_of_ok unsigned]
    show stepped rules _ = _
    rw [stepped, bind_of_ok (call_lineBreak isBreak ends)]
    rfl
  | cons tier tighter ih =>
    rw [binary, bind_of_ok ih]
    cases tier.side <;> rfl

/-- A line break is an expression of its own, unless something follows that is taken to be its member. -/
theorem leads_lineBreak (isBreak : token.kind = .newline) (ends : Ends Kind.continuesBreak rest) :
    Leads (Parse.expression rules) (pure .newline) (token :: rest) rest := by
  intro allowed
  have opened : ternary rules (.before (token :: rest) true) =
      .ok .newline (.paused rest true) := by
    rw [ternary, bind_of_ok (binary_lineBreak isBreak ends Tier.all)]
    rfl
  have assigned : assignment rules (.before (token :: rest) true) =
      .ok .newline (.paused rest true) := by
    rw [assignment, bind_of_ok opened]
    rfl
  have allows : setAllowUnidentified true (.before (token :: rest) allowed) =
      .ok () (.before (token :: rest) true) := rfl
  refine ⟨false, ?_⟩
  rw [Parse.expression, bind_of_ok allows, bind_of_ok assigned]
  rfl

theorem leads_statement (known : token.kind ∈ .newline :: Kind.openings) :
    Leads (Parse.statement rules) (expressionStatement rules) (token :: rest) (token :: rest) := by
  intro allowed
  have undeclared : isVariableKeyword token.kind = false := by
    have apart : ∀ kind ∈ .newline :: Kind.openings, isVariableKeyword kind = false := by decide
    exact apart token.kind known
  have plain : opened rules token = none := by
    unfold opened
    simp only [Kind.openings, List.mem_cons, List.not_mem_nil, or_false] at known
    obtain isKind | isKind | isKind | isKind | isKind | isKind | isKind | isKind | isKind | isKind |
      isKind | isKind | isKind := known
    all_goals
      rw [isKind]
      rfl
  refine ⟨allowed, ?_⟩
  have ran : (get : Parse Reader) (.before (token :: rest) allowed) =
      .ok (.before (token :: rest) allowed) (.before (token :: rest) allowed) := rfl
  rw [Parse.statement, bind_of_ok ran]
  simp only [Reader.before, List.head?_cons, undeclared, plain]
  rfl

theorem leads_program {statement : Parse Stmt} {start stop : List Token} {stmt : Stmt} {stmts : List Stmt}
    {left : Nat} (nonempty : start ≠ []) (first : Leads statement (pure stmt) start rest)
    (later : Leads (program statement left) (pure stmts) rest stop) :
    Leads (program statement (left + 1)) (pure (stmt :: stmts)) start stop := by
  obtain ⟨token, others, rfl⟩ := List.exists_cons_of_ne_nil nonempty
  have none : Leads takeLeftovers (pure []) rest rest := fun allowed => ⟨allowed, rfl⟩
  refine (Leads.seesTrue rfl).bind (Leads.setCanPair.bind (first.bind ?_))
  exact none.bind (later.bind .refl)

def Stmt.lineBreak : Stmt :=
  .expression .newline false

theorem leads_breakStatement (isBreak : token.kind = .newline) (unowned : Ends Kind.continuesBreak rest)
    (unclosed : Ends (· = .symbol .semicolon) rest) :
    Leads (Parse.statement rules) (pure .lineBreak) (token :: rest) rest := by
  refine (leads_statement (isBreak ▸ List.mem_cons_self)).trans ?_
  exact (leads_lineBreak isBreak unowned).bind ((Leads.acceptFalse unclosed).bind .refl)

section

variable {bound left : Nat} {expr : Expr}

theorem leads_plainStatement (plain : Plain .assignment expr) (enough : expr.tokens.length ≤ bound + 1) :
    Leads (Parse.statement (.upTo bound)) (pure (.expression expr true))
      (expr.tokens ++ .ofKind (.symbol .semicolon) :: rest) rest := by
  have read := (ReadBy.expression plain.read) bound (.ofKind (.symbol .semicolon) :: rest) enough
    (.cons (by decide))
  obtain ⟨first, others, shape, _, known⟩ := plain.exists_opening
  rw [shape] at read ⊢
  refine (leads_statement (List.mem_cons_of_mem _ known)).trans ?_
  exact read.bind (Leads.acceptMark.bind .refl)

theorem Plain.unowned (plain : Plain .assignment expr)
    (unbracketed : expr.opening ≠ some (.symbol .leftBracket)) :
    Ends Kind.continuesBreak (expr.tokens ++ rest) := by
  obtain ⟨first, others, shape, opening, known⟩ := plain.exists_opening
  rw [opening] at unbracketed
  have apart : ∀ kind ∈ Kind.openings, kind ≠ .symbol .leftBracket → kind.continuesBreak = false := by
    decide
  rw [shape]
  exact .cons (apart _ known fun bracket => unbracketed (congrArg some bracket))

theorem leads_end {statement : Parse Stmt} : Leads (program statement left) (pure []) [] [] := by
  cases left with
  | zero => exact .refl
  | succ left => exact (Leads.seesFalse .nil).bind .refl

/-- Line breaks are read as so many statements, unless what follows is taken to go on with the last one. -/
theorem leads_lineBreaks {tokens stop : List Token} {stmts : List Stmt}
    (breaks : ∀ token ∈ tokens, token.kind = .newline) (unowned : Ends Kind.continuesBreak rest)
    (unclosed : Ends (· = .symbol .semicolon) rest)
    (later : Leads (program (Parse.statement rules) left) (pure stmts) rest stop) :
    Leads (program (Parse.statement rules) (tokens.length + left))
      (pure (List.replicate tokens.length .lineBreak ++ stmts)) (tokens ++ rest) stop := by
  induction tokens with
  | nil => simpa using later
  | cons token tokens ih =>
    obtain ⟨isBreak, others⟩ := List.forall_mem_cons.mp breaks
    have apart : ∀ takes : Kind → Bool, takes .newline = false → Ends takes rest →
        Ends takes (tokens ++ rest) := by
      intro takes other ends
      cases tokens with
      | nil => exact ends
      | cons next tokens => exact .cons (by rw [others next List.mem_cons_self]; exact other)
    have first : Leads (Parse.statement rules) (pure .lineBreak) (token :: (tokens ++ rest)) (tokens ++ rest) :=
      leads_breakStatement isBreak (apart _ rfl unowned) (apart _ rfl unclosed)
    rw [List.length_cons, Nat.add_right_comm]
    exact leads_program (List.cons_ne_nil _ _) first (ih others)

theorem leads_breaks {stop : List Token} {stmts : List Stmt} (count : Nat)
    (unowned : Ends Kind.continuesBreak rest) (unclosed : Ends (· = .symbol .semicolon) rest)
    (later : Leads (program (Parse.statement rules) left) (pure stmts) rest stop) :
    Leads (program (Parse.statement rules) (count + left)) (pure (List.replicate count .lineBreak ++ stmts))
      (List.replicate count .lineBreak ++ rest) stop := by
  have same : ∀ token ∈ List.replicate count Token.lineBreak, token.kind = .newline :=
    fun token member => List.eq_of_mem_replicate member ▸ rfl
  have read := leads_lineBreaks same unowned unclosed later
  rwa [List.length_replicate] at read

def programRead : List (Expr × Nat) → List Stmt
  | [] => []
  | [(expr, _)] => [.expression expr true]
  | (expr, breaks) :: others => .expression expr true :: (List.replicate breaks .lineBreak ++ programRead others)

theorem tokens_program_single (expr : Expr) (breaks : Nat) :
    wovenTokens (programPieces [(expr, breaks)]) = expr.tokens ++ [.ofKind (.symbol .semicolon)] := by
  simp [programPieces, Expr.tokens]

theorem tokens_separator (breaks : Nat) : wovenTokens (separator breaks) = List.replicate breaks .lineBreak := by
  cases breaks <;> simp [separator, wovenTokens]

theorem tokens_program_cons (expr : Expr) (breaks : Nat) (next : Expr × Nat)
    (others : List (Expr × Nat)) :
    wovenTokens (programPieces ((expr, breaks) :: next :: others)) =
      expr.tokens ++ .ofKind (.symbol .semicolon) :: (List.replicate breaks .lineBreak ++
        wovenTokens (programPieces (next :: others))) := by
  simp [programPieces, Expr.statementPieces, Expr.tokens, tokens_separator]

theorem ends_program {next : Expr × Nat} {takes : Kind → Bool}
    (apart : ∀ rest, Ends takes (next.1.tokens ++ rest)) (others : List (Expr × Nat)) :
    Ends takes (wovenTokens (programPieces (next :: others)) ++ rest) := by
  cases others with
  | nil =>
    rw [tokens_program_single, List.append_assoc]
    exact apart _
  | cons following others =>
    rw [tokens_program_cons, List.append_assoc]
    exact apart _

/-- A program of plain expressions is read back, and so are the line breaks in it and behind it. -/
theorem leads_plainProgram {statements : List (Expr × Nat)}
    (plain : ∀ statement ∈ statements, Plain .assignment statement.1)
    (unbracketed : ∀ statement ∈ statements, statement.1.opening ≠ some (.symbol .leftBracket))
    (breaks : Nat) (enough : (wovenTokens (programPieces statements)).length ≤ bound + 1)
    (steps : (wovenTokens (programPieces statements)).length + breaks ≤ left) :
    Leads (program (Parse.statement (.upTo bound)) left)
      (pure (programRead statements ++ List.replicate breaks .lineBreak))
      (wovenTokens (programPieces statements) ++ List.replicate breaks .lineBreak) [] := by
  have broken : ∀ {left}, breaks ≤ left → Leads (program (Parse.statement (.upTo bound)) left)
      (pure (List.replicate breaks .lineBreak)) (List.replicate breaks .lineBreak) [] := by
    intro left steps
    obtain ⟨left, rfl⟩ := Nat.exists_eq_add_of_le steps
    have read := @leads_breaks (.upTo bound) [] left [] [] breaks .nil .nil leads_end
    rwa [List.append_nil, List.append_nil] at read
  induction statements generalizing left with
  | nil => exact broken (by simpa [programPieces] using steps)
  | cons statement others ih =>
    obtain ⟨expr, between⟩ := statement
    have here : Plain .assignment expr := plain (expr, between) List.mem_cons_self
    have nonempty : ∀ rest, expr.tokens ++ .ofKind (.symbol .semicolon) :: rest ≠ [] := by simp
    cases others with
    | nil =>
      rw [tokens_program_single] at enough steps ⊢
      simp only [List.length_append, List.length_cons, List.length_nil] at enough steps
      obtain ⟨left, rfl⟩ := Nat.exists_eq_add_one.mpr (show 0 < left by omega)
      have read := @leads_plainStatement (List.replicate breaks .lineBreak) bound expr here (by omega)
      rw [List.append_assoc]
      exact leads_program (nonempty _) read (broken (by omega))
    | cons next others =>
      have nextPlain : Plain .assignment next.1 := plain next (by simp)
      have nextUnbracketed := unbracketed next (by simp)
      rw [tokens_program_cons] at enough steps ⊢
      simp only [List.length_append, List.length_cons, List.length_replicate] at enough steps
      obtain ⟨left, rfl⟩ := Nat.exists_eq_add_one.mpr (show 0 < left by omega)
      obtain ⟨left, rfl⟩ := Nat.exists_eq_add_of_le (show between ≤ left by omega)
      have later := @ih left (fun statement member => plain statement (List.mem_cons_of_mem _ member))
        (fun statement member => unbracketed statement (List.mem_cons_of_mem _ member)) (by omega) (by omega)
      have read : programRead ((expr, between) :: next :: others) ++ List.replicate breaks .lineBreak =
          .expression expr true :: (List.replicate between .lineBreak ++
            (programRead (next :: others) ++ List.replicate breaks .lineBreak)) :=
        congrArg (List.cons _) (List.append_assoc ..)
      rw [read, List.append_assoc, List.cons_append, List.append_assoc]
      refine leads_program (nonempty _) (leads_plainStatement here (by omega)) ?_
      exact leads_breaks between (ends_program (fun _ => nextPlain.unowned nextUnbracketed) others)
        (ends_program (nextPlain.ends (by decide)) others) later

theorem parseTokens_plain {statements : List (Expr × Nat)}
    (plain : ∀ statement ∈ statements, Plain .assignment statement.1)
    (unbracketed : ∀ statement ∈ statements, statement.1.opening ≠ some (.symbol .leftBracket))
    (breaks : Nat) :
    ∃ stop, parseTokens (wovenTokens (programPieces statements) ++ List.replicate breaks .lineBreak) =
      .ok (programRead statements ++ List.replicate breaks .lineBreak) stop := by
  have leads := fun {bound left} => @leads_plainProgram bound left _ plain unbracketed breaks
  unfold parseTokens
  rw [List.length_append, List.length_replicate]
  cases size : (wovenTokens (programPieces statements)).length + breaks with
  | zero =>
    obtain ⟨later, read⟩ := @leads 0 0 (by omega) (by omega) false
    exact ⟨_, read⟩
  | succ bound =>
    obtain ⟨later, read⟩ := @leads bound (bound + 1) (by omega) (by omega) false
    exact ⟨_, read⟩

end

end GmlLayout
