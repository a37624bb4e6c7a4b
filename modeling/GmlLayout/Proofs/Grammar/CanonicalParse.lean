import GmlLayout.Proofs.Tree.Canonical

/-!
Canonical programs are read as their trees. A line break behind a statement is read as a statement of its
own, but behind an `if` without a last `else` it is taken for what may stand before the `else`.
-/

namespace GmlLayout

open Parse

section Steps

variable {rules : Rules} {token : Token} {start rest stop : List Token}

theorem Leads.slotOne (trivia : token.kind.isTrivia = true) (ends : Ends Kind.isTrivia rest) :
    Leads Parse.slot (pure [token]) (token :: rest) rest := by
  intro allowed
  refine ⟨allowed, ?_⟩
  cases rest with
  | nil =>
    show EStateM.Result.ok _ _ = EStateM.Result.ok _ _
    simp [Reader.before, trivia]
  | cons next rest =>
    have visible : next.kind.isTrivia = false := ends next rfl
    show EStateM.Result.ok _ _ = EStateM.Result.ok _ _
    simp [Reader.before, trivia, visible]

theorem Leads.acceptWord {word : Keyword} :
    Leads (Parse.accept (.keyword word)) (pure true) (.ofKind (.keyword word) :: rest) rest :=
  (checkTrue (decide_eq_true rfl)).bind ((advance _).bind refl)

theorem Leads.peek : Leads Parse.peek (pure (some token.kind)) (token :: rest) (token :: rest) :=
  fun allowed => ⟨allowed, rfl⟩

theorem leads_opened {later : Parse Stmt} {parser : Parse Stmt} (undeclared : isVariableKeyword token.kind = false)
    (found : opened rules token = some parser) (leads : Leads parser later rest stop) :
    Leads (Parse.statement rules) later (token :: rest) stop := by
  intro allowed
  obtain ⟨allowedLater, reached⟩ := leads allowed
  refine ⟨allowedLater, ?_⟩
  have ran : (get : Parse Reader) (.before (token :: rest) allowed) =
      .ok (.before (token :: rest) allowed) (.before (token :: rest) allowed) := rfl
  have taken : Parse.advance (.before (token :: rest) allowed) = .ok token (.before rest allowed) := rfl
  rw [Parse.statement, bind_of_ok ran]
  simp only [Reader.before, List.head?_cons, undeclared, found]
  exact (bind_of_ok taken).trans reached

theorem leads_variable {later : Parse Stmt} (isVariable : isVariableKeyword token.kind = true)
    (leads : Leads (declaration rules) later (token :: rest) stop) :
    Leads (Parse.statement rules) later (token :: rest) stop := by
  intro allowed
  obtain ⟨allowedLater, reached⟩ := leads allowed
  refine ⟨allowedLater, ?_⟩
  have ran : (get : Parse Reader) (.before (token :: rest) allowed) =
      .ok (.before (token :: rest) allowed) (.before (token :: rest) allowed) := rfl
  rw [Parse.statement, bind_of_ok ran]
  simp only [Reader.before, List.head?_cons, isVariable, if_true]
  exact reached

/-- A loop over statements reads one of them and goes on, unless it stands in front of a brace. -/
structure Repeats (statement : Parse Stmt) (loop : Nat → Parse (List Stmt)) : Prop where
  step {token : Token} {start rest stop : List Token} {stmt : Stmt} {stmts : List Stmt} {left : Nat}
    (apart : token.kind ≠ .symbol .rightBrace) (first : Leads statement (pure stmt) (token :: start) rest)
    (later : Leads (loop left) (pure stmts) rest stop) :
    Leads (loop (left + 1)) (pure (stmt :: stmts)) (token :: start) stop

theorem repeats_program (statement : Parse Stmt) : Repeats statement (Parse.program statement) where
  step _ first later := leads_program (List.cons_ne_nil _ _) first later

theorem repeats_statementsUntil (statement : Parse Stmt) :
    Repeats statement (statementsUntil statement (· = .symbol .rightBrace)) where
  step {token _ _ _ _ _ _} apart first later := by
    have goesOn : (fun kind => !decide (kind = .symbol .rightBrace)) token.kind = true := by
      simpa using apart
    exact (Leads.seesTrue goesOn).bind (first.bind (later.bind .refl))

end Steps

namespace Canonical

open Piece (mark)

def openings : List Kind :=
  [.identifier, .number, .symbol .leftParen, .keyword .varWord, .keyword .ifWord, .keyword .whileWord,
   .keyword .withWord, .keyword .repeatWord]

def continues (kind : Kind) : Bool :=
  kind.isTrivia || kind.continuesBreak || kind = .symbol .semicolon || kind = .keyword .elseWord

section Tokens

def Statement.tokens (statement : Statement) (depth : Nat) : List Token :=
  wovenTokens (statement.pieces 0 depth 0)

def Conditional.tokens (choice : Conditional) (depth : Nat) : List Token :=
  wovenTokens (choice.pieces 0 depth 0)

def Body.tokens (body : Body) (depth : Nat) : List Token :=
  wovenTokens (body.pieces 0 depth 0)

def blockTokens (depth : Nat) (body : Body) : List Token :=
  .ofKind (.symbol .leftBrace) :: .rowBreak (depth + 1) :: (body.tokens (depth + 1) ++
    [.rowBreak depth, .ofKind (.symbol .rightBrace)])

theorem length_blockTokens (depth : Nat) (body : Body) : 0 < (blockTokens depth body).length :=
  Nat.succ_pos _

theorem wovenTokens_blockPieces (depth : Nat) (body : Body) :
    wovenTokens (blockPieces depth (body.pieces 0 (depth + 1) 0)) = blockTokens depth body := by
  simp [blockPieces, blockTokens, Body.tokens, wovenTokens_rowStart]

theorem wovenTokens_headed (word : Keyword) (condition : Condition) (block : List Piece) :
    wovenTokens (headed word condition block) =
      .ofKind (.keyword word) :: (condition.tree.tokens ++ wovenTokens block) := by
  simp [headed, Expr.tokens]

theorem wovenTokens_otherwise : wovenTokens otherwise = [.ofKind (.keyword .elseWord)] := rfl

theorem tokens_expression (value : Expression) (depth : Nat) :
    (Statement.expression value).tokens depth = value.tree.tokens ++ [.ofKind (.symbol .semicolon)] := by
  simp [Statement.tokens, Statement.pieces, Expr.tokens]

theorem tokens_declaration (name : Name) (value : Expression) (depth : Nat) :
    (Statement.declaration name value).tokens depth = .ofKind (.keyword .varWord) ::
      ((declared name value).tokens ++ [.ofKind (.symbol .semicolon)]) := by
  simp [Statement.tokens, Statement.pieces, Expr.tokens]

theorem tokens_loop (word : LoopWord) (condition : Condition) (body : Body) (depth : Nat) :
    (Statement.loop word condition body).tokens depth =
      .ofKind (.keyword word.keyword) :: (condition.tree.tokens ++ blockTokens depth body) := by
  simp [Statement.tokens, Statement.pieces, wovenTokens_headed, wovenTokens_blockPieces]

theorem tokens_plain (condition : Condition) (body : Body) (depth : Nat) :
    (Conditional.plain condition body).tokens depth =
      .ofKind (.keyword .ifWord) :: (condition.tree.tokens ++ blockTokens depth body) := by
  simp [Conditional.tokens, Conditional.pieces, wovenTokens_headed, wovenTokens_blockPieces]

theorem tokens_withElse (condition : Condition) (body other : Body) (depth : Nat) :
    (Conditional.withElse condition body other).tokens depth =
      .ofKind (.keyword .ifWord) :: (condition.tree.tokens ++ (blockTokens depth body ++
        .ofKind (.keyword .elseWord) :: blockTokens depth other)) := by
  simp [Conditional.tokens, Conditional.pieces, wovenTokens_headed, wovenTokens_blockPieces,
    wovenTokens_otherwise, leftBehind_zero]

theorem tokens_withElseIf (condition : Condition) (body : Body) (other : Conditional) (depth : Nat) :
    (Conditional.withElseIf condition body other).tokens depth =
      .ofKind (.keyword .ifWord) :: (condition.tree.tokens ++ (blockTokens depth body ++
        .ofKind (.keyword .elseWord) :: other.tokens depth)) := by
  simp [Conditional.tokens, Conditional.pieces, wovenTokens_headed, wovenTokens_blockPieces,
    wovenTokens_otherwise, leftBehind_zero]

theorem tokens_cons (statement : Statement) (others : Body) (depth : Nat) :
    (Body.cons statement others).tokens depth =
      statement.tokens depth ++ .rowBreak depth :: others.tokens depth := by
  simp [Body.tokens, Body.pieces, Statement.tokens, statement.left_zero, wovenTokens_rowStart]

theorem Expression.exists_opening (expression : Expression) : ∃ token others,
    expression.tree.tokens = token :: others ∧ token.kind ∈ openings := by
  cases expression with
  | name word => exact ⟨_, _, rfl, by simp [openings, Name.token]⟩
  | number digits => exact ⟨_, _, rfl, by simp [openings, Number.token]⟩
  | call callee arguments => exact ⟨_, _, rfl, by simp [openings, Name.token]⟩
  | assign target operator value => exact ⟨_, _, rfl, by simp [openings, Name.token]⟩
  | binary left operator right => exact ⟨_, _, rfl, by simp [openings, Token.ofKind]⟩

theorem Conditional.exists_opening (choice : Conditional) (depth : Nat) : ∃ token others,
    choice.tokens depth = token :: others ∧ token.kind ∈ openings := by
  cases choice with
  | plain condition body => exact ⟨_, _, tokens_plain .., by decide⟩
  | withElse condition body other => exact ⟨_, _, tokens_withElse .., by decide⟩
  | withElseIf condition body other => exact ⟨_, _, tokens_withElseIf .., by decide⟩

theorem Statement.exists_opening (statement : Statement) (depth : Nat) : ∃ token others,
    statement.tokens depth = token :: others ∧ token.kind ∈ openings := by
  cases statement with
  | expression value =>
    obtain ⟨token, others, shape, known⟩ := value.exists_opening
    exact ⟨token, _, by rw [tokens_expression, shape]; rfl, known⟩
  | declaration name value => exact ⟨_, _, rfl, by simp [openings, Token.ofKind]⟩
  | conditional choice => exact choice.exists_opening depth
  | loop word condition body =>
    refine ⟨_, _, tokens_loop .., ?_⟩
    cases word <;> decide

theorem Body.exists_opening (body : Body) (depth : Nat) : ∃ token others,
    body.tokens depth = token :: others ∧ token.kind ∈ openings := by
  cases body with
  | last statement => exact statement.exists_opening depth
  | cons statement others =>
    obtain ⟨token, more, shape, known⟩ := statement.exists_opening depth
    exact ⟨token, _, by rw [tokens_cons, shape]; rfl, known⟩

theorem Body.ends (body : Body) (depth : Nat) (rest : List Token) :
    Ends continues (body.tokens depth ++ rest) := by
  have apart : ∀ kind ∈ openings, continues kind = false := by decide
  obtain ⟨token, others, shape, known⟩ := body.exists_opening depth
  rw [shape]
  exact .cons (apart _ known)

theorem Body.length_trees (body : Body) (depth next : Nat) :
    (body.trees depth next).length ≤ (body.tokens depth).length + 1 := by
  have nonempty : ∀ statement : Statement, 0 < (statement.tokens depth).length := by
    intro statement
    obtain ⟨token, others, shape, _⟩ := statement.exists_opening depth
    rw [shape]
    exact Nat.succ_pos _
  have follows : ∀ statement : Statement,
      (if statement.takesBreak then [] else [Stmt.lineBreak]).length ≤ 1 := by
    intro statement
    split <;> simp
  cases body with
  | last statement =>
    have here := nonempty statement
    have after := follows statement
    rw [Body.trees, List.length_cons]
    exact Nat.succ_le_succ (Nat.le_trans after here)
  | cons statement others =>
    have here := nonempty statement
    have after := follows statement
    have later := Body.length_trees others depth next
    rw [Body.trees, tokens_cons, List.length_cons, List.length_append, List.length_append, List.length_cons]
    omega

end Tokens

section Leads

variable {bound : Nat} {rest stop : List Token}

theorem continues_free (ends : Ends continues rest) : Ends Kind.isTrivia rest ∧
    Ends Kind.continuesBreak rest ∧ Ends (· = .symbol .semicolon) rest ∧
      Ends (· = .keyword .elseWord) rest := by
  have apart : ∀ kind, continues kind = false → kind.isTrivia = false ∧ kind.continuesBreak = false ∧
      decide (kind = .symbol .semicolon) = false ∧ decide (kind = .keyword .elseWord) = false := by
    intro kind free
    simp only [continues, Bool.or_eq_false_iff] at free
    exact ⟨free.1.1.1, free.1.1.2, free.1.2, free.2⟩
  exact ⟨ends.weaken fun kind free => (apart kind free).1,
    ends.weaken fun kind free => (apart kind free).2.1,
    ends.weaken fun kind free => (apart kind free).2.2.1,
    ends.weaken fun kind free => (apart kind free).2.2.2⟩

theorem leads_condition (condition : Condition) (enough : condition.tree.tokens.length ≤ bound + 1)
    (rest : List Token) :
    Leads (Parse.expression (.upTo bound)) (pure condition.tree)
      (condition.tree.tokens ++ .ofKind (.symbol .leftBrace) :: rest)
      (.ofKind (.symbol .leftBrace) :: rest) := by
  have plain : Plain .assignment condition.tree :=
    .value condition.plain.unary_of_owner.ternary_of_unary
  exact (ReadBy.expression plain.read) bound _ enough (.cons (by decide))

theorem ends_condition (condition : Condition) (rest : List Token) :
    Ends Kind.isTrivia (condition.tree.tokens ++ rest) :=
  condition.plain.ends (by decide) rest

/-- A body reads as its statements wherever a loop reads them one by one. -/
def Body.ReadBy (body : Body) : Prop :=
  ∀ (depth next bound left : Nat) (loop : Nat → Parse (List Stmt)) (rest : List Token),
    Repeats (Parse.statement (.upTo bound)) loop → (∀ left, Leads (loop left) (pure []) rest rest) →
    Ends continues rest → (body.tokens depth).length ≤ bound + 1 →
    (body.trees depth next).length ≤ left →
    Leads (loop left) (pure (body.trees depth next)) (body.tokens depth ++ .rowBreak next :: rest) rest

def Body.block (body : Body) (depth : Nat) : Stmt :=
  .block [.rowBreak (depth + 1)] (body.trees (depth + 1) depth) false

theorem leads_block {body : Body} (read : body.ReadBy) (depth : Nat)
    (enough : (blockTokens depth body).length ≤ bound + 1) (unclosed : Ends (· = .symbol .semicolon) rest) :
    Leads (Parse.statement (.upTo bound)) (pure (body.block depth)) (blockTokens depth body ++ rest) rest := by
  have few := body.length_trees (depth + 1) depth
  simp only [blockTokens, List.length_cons, List.length_append, List.length_nil] at enough
  obtain ⟨bound, rfl⟩ := Nat.exists_eq_add_one.mpr (show 0 < bound by omega)
  have stays : ∀ left, Leads (statementsUntil (Parse.statement (.upTo bound)) (· = .symbol .rightBrace) left)
      (pure []) (.ofKind (.symbol .rightBrace) :: rest) (.ofKind (.symbol .rightBrace) :: rest) := by
    intro left
    cases left with
    | zero => exact .refl
    | succ left => exact (Leads.seesFalse (.cons (by decide))).bind .refl
  have inside := read (depth + 1) depth bound (bound + 1) _ _ (repeats_statementsUntil _) stays
    (.cons (by decide)) (by omega) (by omega)
  have shape : blockTokens depth body ++ rest = .ofKind (.symbol .leftBrace) :: .rowBreak (depth + 1) ::
      (body.tokens (depth + 1) ++ .rowBreak depth :: .ofKind (.symbol .rightBrace) :: rest) := by
    simp [blockTokens]
  rw [shape]
  refine leads_opened (by decide) rfl ?_
  refine (Leads.slotOne rfl (continues_free (body.ends _ _)).1).bind ?_
  rw [Rules.bound_upTo]
  refine inside.bind ?_
  exact Leads.acceptMark.bind ((Leads.acceptFalse unclosed).bind .refl)

theorem leads_declaration (name : Name) (value : Expression)
    (enough : (declared name value).tokens.length ≤ bound) :
    Leads (Parse.statement (.upTo bound)) (pure ((Statement.declaration name value).tree 0 0))
      (.ofKind (.keyword .varWord) :: ((declared name value).tokens ++
        .ofKind (.symbol .semicolon) :: rest)) rest := by
  have plain := plain_declared name value
  have nonempty := plain.length_tokens
  obtain ⟨bound, rfl⟩ := Nat.exists_eq_add_one.mpr (show 0 < bound by omega)
  have read := (ReadBy.expression plain.read) bound (.ofKind (.symbol .semicolon) :: rest) enough
    (.cons (by decide))
  refine leads_variable rfl ((Leads.advance _).bind ?_)
  refine (Leads.slot (plain.ends (by decide) _)).bind ?_
  let only : Series Variable := ⟨[⟨⟨declared name value, none, []⟩, []⟩], false⟩
  refine @Leads.bind _ _ _ _ _ _ _ only _ ?_ (Leads.acceptMark.bind .refl)
  rw [Rules.bound_upTo]
  refine (Leads.checkFalse (plain.ends (by decide) _)).bind ?_
  refine (Leads.checkFalse (plain.ends (by decide) _)).bind ?_
  refine Leads.bind Leads.peek ?_
  refine read.bind ?_
  refine (Leads.acceptFalse (.cons (by decide))).bind ?_
  exact (Leads.slot (.cons (by decide))).bind .refl

/-- A statement reads as its tree, with the line break behind it where it takes one. -/
def Statement.ReadBy (statement : Statement) : Prop :=
  ∀ (depth next bound : Nat) (rest : List Token), Ends continues rest →
    (statement.tokens depth).length ≤ bound + 1 →
    Leads (Parse.statement (.upTo bound)) (pure (statement.tree depth next))
      (statement.tokens depth ++ .rowBreak next :: rest)
      (if statement.takesBreak then rest else .rowBreak next :: rest)

def Conditional.ReadBy (choice : Conditional) : Prop :=
  ∀ (depth next bound : Nat) (rest : List Token), Ends continues rest →
    (choice.tokens depth).length ≤ bound + 1 →
    Leads (Parse.statement (.upTo bound)) (pure (choice.tree depth next))
      (choice.tokens depth ++ .rowBreak next :: rest)
      (if choice.takesBreak then rest else .rowBreak next :: rest)

theorem Statement.ReadBy.row {statement : Statement} (read : statement.ReadBy) {depth next left : Nat}
    {loop : Nat → Parse (List Stmt)} {stmts : List Stmt}
    (repeats : Repeats (Parse.statement (.upTo bound)) loop)
    (later : ∀ left, stmts.length ≤ left → Leads (loop left) (pure stmts) rest stop)
    (ends : Ends continues rest) (enough : (statement.tokens depth).length ≤ bound + 1)
    (steps : ((if statement.takesBreak then [] else [Stmt.lineBreak]) ++ stmts).length < left) :
    Leads (loop left) (pure (statement.tree depth next ::
        ((if statement.takesBreak then [] else [.lineBreak]) ++ stmts)))
      (statement.tokens depth ++ .rowBreak next :: rest) stop := by
  have apart : ∀ kind ∈ openings, kind ≠ .symbol .rightBrace := by decide
  have first := read depth next bound rest ends enough
  obtain ⟨token, others, shape, known⟩ := statement.exists_opening depth
  rw [shape] at first ⊢
  obtain ⟨left, rfl⟩ := Nat.exists_eq_add_one.mpr (Nat.zero_lt_of_lt steps)
  refine repeats.step (apart _ known) first ?_
  cases takes : statement.takesBreak with
  | true =>
    rw [takes] at steps
    exact later left (Nat.le_of_lt_succ steps)
  | false =>
    rw [takes] at steps
    obtain ⟨left, rfl⟩ := Nat.exists_eq_add_one.mpr (Nat.zero_lt_of_lt (Nat.lt_of_succ_lt_succ steps))
    obtain ⟨_, unowned, unclosed, _⟩ := continues_free ends
    exact repeats.step nofun (leads_breakStatement rfl unowned unclosed)
      (later left (Nat.le_of_lt_succ (Nat.lt_of_succ_lt_succ steps)))

theorem leads_conditional {body : Body} (read : body.ReadBy) (condition : Condition) {depth : Nat}
    {later : Parse Stmt}
    (enough : condition.tree.tokens.length + (blockTokens depth body).length ≤ bound + 1)
    (unclosed : Ends (· = .symbol .semicolon) rest)
    (goesOn : Leads (do
      let between ← slot
      if ← accept (.keyword .elseWord) then
        let afterElse ← slot
        let whenFalse ← Parse.statement (.upTo bound)
        return .conditional [] condition.tree (body.block depth) between afterElse whenFalse (← semicolon)
      else
        return .conditional [] condition.tree (body.block depth) between [] none (← semicolon))
      later rest stop) :
    Leads (Parse.statement (.upTo (bound + 1))) later
      (.ofKind (.keyword .ifWord) :: (condition.tree.tokens ++ (blockTokens depth body ++ rest))) stop := by
  refine leads_opened (by decide) rfl ?_
  refine (Leads.slot (ends_condition condition _)).bind ?_
  refine (leads_condition condition (by omega) _).bind ?_
  exact (leads_block read depth (by omega) unclosed).bind goesOn

mutual

theorem Statement.read : ∀ statement : Statement, statement.ReadBy
  | .expression value => by
    intro depth next bound rest _ enough
    rw [tokens_expression] at enough ⊢
    rw [List.length_append] at enough
    rw [List.append_assoc]
    exact leads_plainStatement value.plain (Nat.le_of_add_right_le enough)
  | .declaration name value => by
    intro depth next bound rest _ enough
    rw [tokens_declaration] at enough ⊢
    rw [List.length_cons, List.length_append] at enough
    rw [List.cons_append, List.append_assoc]
    exact leads_declaration name value (Nat.le_of_add_right_le (Nat.le_of_succ_le_succ enough))
  | .conditional choice => choice.read
  | .loop word condition body => by
    intro depth next bound rest _ enough
    have opens : opened (.upTo bound) (.ofKind (.keyword word.keyword)) =
        some (loopRest (.upTo bound) (.ofKind (.keyword word.keyword))) := by
      cases word <;> rfl
    rw [tokens_loop] at enough ⊢
    simp only [List.length_cons, List.length_append] at enough
    have braced := length_blockTokens depth body
    obtain ⟨bound, rfl⟩ := Nat.exists_eq_add_one.mpr (show 0 < bound by omega)
    rw [List.cons_append, List.append_assoc]
    refine leads_opened (by cases word <;> rfl) opens ?_
    refine (Leads.slot (ends_condition condition _)).bind ?_
    refine (leads_condition condition (by omega) _).bind ?_
    refine (leads_block body.read depth (by omega) (.cons rfl)).bind ?_
    exact (Leads.acceptFalse (.cons rfl)).bind .refl

theorem Conditional.read : ∀ choice : Conditional, choice.ReadBy
  | .plain condition body => by
    intro depth next bound rest ends enough
    obtain ⟨shown, _, unclosed, last⟩ := continues_free ends
    rw [tokens_plain] at enough ⊢
    simp only [List.length_cons, List.length_append] at enough
    have braced := length_blockTokens depth body
    obtain ⟨bound, rfl⟩ := Nat.exists_eq_add_one.mpr (show 0 < bound by omega)
    rw [List.cons_append, List.append_assoc]
    refine leads_conditional body.read condition (by omega) (.cons rfl) ?_
    refine (Leads.slotOne rfl shown).bind ((Leads.acceptFalse last).bind ?_)
    exact (Leads.acceptFalse unclosed).bind .refl
  | .withElse condition body other => by
    intro depth next bound rest ends enough
    rw [tokens_withElse] at enough ⊢
    simp only [List.length_cons, List.length_append] at enough
    have braced := length_blockTokens depth body
    obtain ⟨bound, rfl⟩ := Nat.exists_eq_add_one.mpr (show 0 < bound by omega)
    rw [List.cons_append, List.append_assoc, List.append_assoc, List.cons_append]
    refine leads_conditional body.read condition (by omega) (.cons (by decide)) ?_
    refine (Leads.slot (.cons (by decide))).bind (Leads.acceptWord.bind ?_)
    refine (Leads.slot (.cons (by decide))).bind ?_
    refine (leads_block other.read depth (by omega) (.cons rfl)).bind ?_
    exact (Leads.acceptFalse (.cons rfl)).bind .refl
  | .withElseIf condition body other => by
    intro depth next bound rest ends enough
    rw [tokens_withElseIf] at enough ⊢
    simp only [List.length_cons, List.length_append] at enough
    have braced := length_blockTokens depth body
    obtain ⟨bound, rfl⟩ := Nat.exists_eq_add_one.mpr (show 0 < bound by omega)
    have second := other.read depth next bound rest ends (by omega)
    have shown : Ends Kind.isTrivia (other.tokens depth ++ .rowBreak next :: rest) := by
      have apart : ∀ kind ∈ openings, kind.isTrivia = false := by decide
      obtain ⟨token, others, shape, known⟩ := other.exists_opening depth
      rw [shape]
      exact .cons (apart _ known)
    have unclosed : Ends (· = .symbol .semicolon)
        (if other.takesBreak then rest else .rowBreak next :: rest) := by
      cases other.takesBreak with
      | true => exact (continues_free ends).2.2.1
      | false => exact .cons rfl
    rw [List.cons_append, List.append_assoc, List.append_assoc, List.cons_append]
    refine leads_conditional body.read condition (by omega) (.cons (by decide)) ?_
    refine (Leads.slot (.cons (by decide))).bind (Leads.acceptWord.bind ?_)
    refine (Leads.slot shown).bind (second.bind ?_)
    exact (Leads.acceptFalse unclosed).bind .refl

theorem Body.read : ∀ body : Body, body.ReadBy
  | .last statement => by
    intro depth next bound left loop rest repeats stays ends enough steps
    have done : ∀ left, ([] : List Stmt).length ≤ left → Leads (loop left) (pure []) rest rest :=
      fun left _ => stays left
    have row := @Statement.ReadBy.row _ _ _ _ statement.read depth next left _ _ repeats done ends enough
    rw [List.append_nil] at row
    exact row steps
  | .cons statement others => by
    intro depth next bound left loop rest repeats stays ends enough steps
    rw [tokens_cons, List.length_append, List.length_cons] at enough
    rw [tokens_cons, List.append_assoc, List.cons_append]
    exact statement.read.row repeats
      (fun left steps => others.read depth next bound left loop rest repeats stays ends (by omega) steps)
      (others.ends depth _) (by omega) steps

end

end Leads

theorem parseTokens_pieces (program : Body) : ∃ stop,
    parseTokens (wovenTokens (program.pieces 0 0 0 ++ rowStart 0)) = .ok (program.trees 0 0) stop := by
  have shape : wovenTokens (program.pieces 0 0 0 ++ rowStart 0) = program.tokens 0 ++ [.rowBreak 0] := by
    rw [wovenTokens_append, wovenTokens_rowStart]
    rfl
  have few := program.length_trees 0 0
  have stays : ∀ left, Leads (Parse.program (Parse.statement (.upTo (program.tokens 0).length)) left)
      (pure []) [] [] := by
    intro left
    cases left with
    | zero => exact .refl
    | succ left => exact (Leads.seesFalse .nil).bind .refl
  obtain ⟨_, read⟩ := program.read 0 0 _ ((program.tokens 0).length + 1) _ [] (repeats_program _) stays .nil
    (Nat.le_succ _) few false
  unfold parseTokens
  rw [shape, List.length_append]
  exact ⟨_, read⟩

end Canonical

end GmlLayout
