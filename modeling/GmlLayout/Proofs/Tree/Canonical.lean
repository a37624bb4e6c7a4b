import GmlLayout.Proofs.Grammar.PlainProgram
import GmlLayout.Proofs.Token.Apart
import GmlLayout.Proofs.Token.Rows

/-!
Canonical programs: expression statements, declarations of one variable, conditionals and loops with
braced bodies, nested to any depth. They have a standard text, one statement on each line. Each has a
tree that it is read as, and pieces that it is written with. A body that is a lone `if` without a last
`else` grants an exemption, and the declarations that come upon one go without a semicolon; the standard
text is the one in which nothing is granted.
-/

namespace GmlLayout

namespace Canonical

structure Name where
  text : String
  isName : Cut .identifier text.toList []

structure Number where
  text : String
  isNumber : Cut .number text.toList []

structure AssignmentOperator where
  symbol : Symbol
  assigns : (Kind.symbol symbol).isAssignment = true

structure BinaryOperator where
  kind : Kind
  joins : Tier.all.any (·.joins kind) = true

inductive Expression where
  | name (word : Name)
  | number (digits : Number)
  | call (callee : Name) (arguments : List Expression)
  | assign (target : Name) (operator : AssignmentOperator) (value : Expression)
  | binary (left : Expression) (operator : BinaryOperator) (right : Expression)

/-- An expression in the parentheses behind a word. A binary one may stand in its own. -/
inductive Condition where
  | enclosed (value : Expression)
  | binary (left : Expression) (operator : BinaryOperator) (right : Expression)

inductive LoopWord where
  | while
  | with
  | repeat
deriving DecidableEq

mutual

inductive Statement where
  | expression (value : Expression)
  /-- The declaration of one variable with its value. -/
  | declaration (name : Name) (value : Expression)
  | conditional (choice : Conditional)
  | loop (word : LoopWord) (condition : Condition) (body : Body)

inductive Conditional where
  | plain (condition : Condition) (body : Body)
  | withElse (condition : Condition) (body : Body) (other : Body)
  | withElseIf (condition : Condition) (body : Body) (other : Conditional)

inductive Body where
  | last (statement : Statement)
  | cons (statement : Statement) (others : Body)

end

def Name.token (name : Name) : Token :=
  ⟨.identifier, .text name.text, 0, 0⟩

def Number.token (number : Number) : Token :=
  ⟨.number, .text number.text, 0, 0⟩

def AssignmentOperator.token (operator : AssignmentOperator) : Token :=
  .ofKind (.symbol operator.symbol)

def BinaryOperator.token (operator : BinaryOperator) : Token :=
  .ofKind operator.kind

def LoopWord.keyword : LoopWord → Keyword
  | .while => .whileWord
  | .with => .withWord
  | .repeat => .repeatWord

namespace Expression

mutual

def render : Expression → String
  | .name word => word.text
  | .number digits => digits.text
  | .call callee arguments => callee.text ++ "(" ++ renderList arguments ++ ")"
  | .assign target operator value => target.text ++ " " ++ operator.symbol.text ++ " " ++ value.render
  | .binary left operator right =>
    "(" ++ left.render ++ " " ++ operator.kind.fixedText ++ " " ++ right.render ++ ")"

def renderList : List Expression → String
  | [] => ""
  | [only] => only.render
  | first :: others => first.render ++ ", " ++ renderList others

end

end Expression

def Condition.render : Condition → String
  | .enclosed value => "(" ++ value.render ++ ")"
  | .binary left operator right => (Expression.binary left operator right).render

def margin (depth : Nat) : String :=
  String.ofList (List.replicate (4 * depth) ' ')

def renderBlock (depth : Nat) (inside : String) : String :=
  "\x7b\n" ++ inside ++ margin depth ++ "\x7d"

mutual

/-- The standard text of a statement: its lines, each with its line feed. -/
def Statement.render : Statement → Nat → String
  | .expression value, depth => margin depth ++ value.render ++ ";\n"
  | .declaration name value, depth => margin depth ++ "var " ++ name.text ++ " = " ++ value.render ++ ";\n"
  | .conditional choice, depth => margin depth ++ choice.render depth
  | .loop word condition body, depth =>
    margin depth ++ word.keyword.text ++ " " ++ condition.render ++ " " ++
      renderBlock depth (body.render (depth + 1)) ++ "\n"

def Conditional.render : Conditional → Nat → String
  | .plain condition body, depth =>
    "if " ++ condition.render ++ " " ++ renderBlock depth (body.render (depth + 1)) ++ "\n"
  | .withElse condition body other, depth =>
    "if " ++ condition.render ++ " " ++ renderBlock depth (body.render (depth + 1)) ++ " else " ++
      renderBlock depth (other.render (depth + 1)) ++ "\n"
  | .withElseIf condition body other, depth =>
    "if " ++ condition.render ++ " " ++ renderBlock depth (body.render (depth + 1)) ++ " else " ++
      other.render depth

def Body.render : Body → Nat → String
  | .last statement, depth => statement.render depth
  | .cons statement others, depth => statement.render depth ++ others.render depth

end

end Canonical

/-- What is read where two expressions stand on both sides of an operator: an assignment reaches as far
as it can. -/
def Expr.joined (operator : Token) : Expr → Expr → Expr
  | .assign target assigns after value, right =>
    .assign target assigns after (joined operator value right)
  | left, .assign target assigns after value =>
    .assign (.binary left operator [] target) assigns after value
  | left, right => .binary left operator [] right

namespace Canonical

namespace Expression

mutual

def tree : Expression → Expr
  | .name word => .identifier word.token []
  | .number digits => .literal digits.token []
  | .call callee arguments =>
    .call (.identifier callee.token []) [] ⟨items arguments, (items arguments).isEmpty⟩ []
  | .assign target operator value => .assign (.identifier target.token []) operator.token [] value.tree
  | .binary left operator right => .grouping [] [Expr.joined operator.token left.tree right.tree] []

def items : List Expression → List (Item Expr)
  | [] => []
  | first :: others => ⟨first.tree, []⟩ :: items others

end

end Expression

def Condition.tree : Condition → Expr
  | .enclosed value => .grouping [] [value.tree] []
  | .binary left operator right => (Expression.binary left operator right).tree

open Piece (mark)

/-- Whether the line break behind the statement is read as a part of it. -/
def Conditional.takesBreak : Conditional → Bool
  | .plain .. => true
  | .withElse .. => false
  | .withElseIf _ _ other => other.takesBreak

def Statement.takesBreak : Statement → Bool
  | .conditional choice => choice.takesBreak
  | _ => false

def Body.isLone : Body → Bool
  | .last statement => statement.takesBreak
  | .cons .. => false

/-- The exemptions that are left behind a block, if `inside` tells what becomes of them in it. -/
def leftBehind (granted : Nat) (isLone : Bool) (inside : Nat → Nat) (owed : Nat) : Nat :=
  inside (owed + if isLone then granted else 0) - 1

mutual

/-- The exemptions that are left behind a statement, where a lone body grants so many. -/
def Statement.left (granted : Nat) : Statement → Nat → Nat
  | .expression _, owed => owed - 1
  | .declaration _ _, owed => owed - 1
  | .conditional choice, owed => choice.left granted owed
  | .loop _ _ body, owed => leftBehind granted body.isLone (body.left granted) owed - 1

def Conditional.left (granted : Nat) : Conditional → Nat → Nat
  | .plain _ body, owed => leftBehind granted body.isLone (body.left granted) owed - 1
  | .withElse _ body other, owed =>
    leftBehind granted other.isLone (other.left granted)
      (leftBehind granted body.isLone (body.left granted) owed) - 1
  | .withElseIf _ body other, owed =>
    other.left granted (leftBehind granted body.isLone (body.left granted) owed) - 1

def Body.left (granted : Nat) : Body → Nat → Nat
  | .last statement, owed => statement.left granted owed
  | .cons statement others, owed => others.left granted (statement.left granted owed)

end

def blockPieces (depth : Nat) (inside : List Piece) : List Piece :=
  mark .leftBrace :: rowStart (depth + 1) ++ inside ++ rowStart depth ++ [mark .rightBrace]

def headed (word : Keyword) (condition : Condition) (block : List Piece) : List Piece :=
  some (.ofKind (.keyword word)) :: none :: condition.tree.pieces ++ none :: block

def otherwise : List Piece :=
  [none, some (.ofKind (.keyword .elseWord)), none]

def declared (name : Name) (value : Expression) : Expr :=
  .assign (.identifier name.token []) (.ofKind (.symbol .equal)) [] value.tree

mutual

def Statement.pieces (granted : Nat) : Statement → Nat → Nat → List Piece
  | .expression value, _, _ => value.tree.pieces ++ [mark .semicolon]
  | .declaration name value, _, owed =>
    some (.ofKind (.keyword .varWord)) :: none :: (declared name value).pieces ++
      if owed = 0 then [mark .semicolon] else []
  | .conditional choice, depth, owed => choice.pieces granted depth owed
  | .loop word condition body, depth, owed =>
    headed word.keyword condition (blockPieces depth
      (body.pieces granted (depth + 1) (owed + if body.isLone then granted else 0)))

def Conditional.pieces (granted : Nat) : Conditional → Nat → Nat → List Piece
  | .plain condition body, depth, owed =>
    headed .ifWord condition (blockPieces depth
      (body.pieces granted (depth + 1) (owed + if body.isLone then granted else 0)))
  | .withElse condition body other, depth, owed =>
    headed .ifWord condition (blockPieces depth
      (body.pieces granted (depth + 1) (owed + if body.isLone then granted else 0))) ++ otherwise ++
    blockPieces depth (other.pieces granted (depth + 1)
      (leftBehind granted body.isLone (body.left granted) owed + if other.isLone then granted else 0))
  | .withElseIf condition body other, depth, owed =>
    headed .ifWord condition (blockPieces depth
      (body.pieces granted (depth + 1) (owed + if body.isLone then granted else 0))) ++ otherwise ++
    other.pieces granted depth (leftBehind granted body.isLone (body.left granted) owed)

def Body.pieces (granted : Nat) : Body → Nat → Nat → List Piece
  | .last statement, depth, owed => statement.pieces granted depth owed
  | .cons statement others, depth, owed =>
    statement.pieces granted depth owed ++ rowStart depth ++
      others.pieces granted depth (statement.left granted owed)

end

mutual

/-- The tree that a statement is read as, where the next line is of the given depth. -/
def Statement.tree : Statement → Nat → Nat → Stmt
  | .expression value, _, _ => .expression value.tree true
  | .declaration name value, _, _ =>
    .declaration (.ofKind (.keyword .varWord)) []
      ⟨[⟨⟨declared name value, none, []⟩, []⟩], false⟩ true
  | .conditional choice, depth, next => choice.tree depth next
  | .loop word condition body, depth, _ =>
    .loop (.ofKind (.keyword word.keyword)) [] condition.tree
      (.block [.rowBreak (depth + 1)] (body.trees (depth + 1) depth) false) false

def Conditional.tree : Conditional → Nat → Nat → Stmt
  | .plain condition body, depth, next =>
    .conditional [] condition.tree
      (.block [.rowBreak (depth + 1)] (body.trees (depth + 1) depth) false) [.rowBreak next] [] none false
  | .withElse condition body other, depth, _ =>
    .conditional [] condition.tree
      (.block [.rowBreak (depth + 1)] (body.trees (depth + 1) depth) false) [] []
      (some (.block [.rowBreak (depth + 1)] (other.trees (depth + 1) depth) false)) false
  | .withElseIf condition body other, depth, next =>
    .conditional [] condition.tree
      (.block [.rowBreak (depth + 1)] (body.trees (depth + 1) depth) false) [] []
      (some (other.tree depth next)) false

/-- The statements that a body is read as, with the line breaks that are statements of their own. -/
def Body.trees : Body → Nat → Nat → List Stmt
  | .last statement, depth, next =>
    statement.tree depth next :: if statement.takesBreak then [] else [.lineBreak]
  | .cons statement others, depth, next =>
    statement.tree depth depth :: ((if statement.takesBreak then [] else [.lineBreak]) ++
      others.trees depth next)

end

section Plain

theorem Name.isName_token (name : Name) : name.token.IsName :=
  ⟨rfl, name.text, [], rfl, name.isName⟩

theorem Number.isLiteral_token (number : Number) : number.token.IsLiteral :=
  ⟨⟨number.text, [], rfl, number.isNumber⟩, .inl rfl⟩

theorem AssignmentOperator.isOperator (operator : AssignmentOperator) :
    operator.token.IsOperator Kind.isAssignment :=
  ⟨operator.assigns, rfl⟩

inductive Chained : Expr → Prop where
  | operand {expr : Expr} (plain : Plain .owner expr) : Chained expr
  | assign {target operator : Token} {value : Expr} (name : target.IsName)
      (assigns : operator.IsOperator Kind.isAssignment) (chained : Chained value) :
      Chained (.assign (.identifier target []) operator [] value)

theorem Chained.plain {expr : Expr} (chained : Chained expr) : Plain .assignment expr := by
  induction chained with
  | operand plain => exact .value plain.unary_of_owner.ternary_of_unary
  | assign name assigns _ ih => exact .assign (Plain.identifier name).unary_of_owner.ternary_of_unary assigns ih

theorem plain_tiers_append {expr : Expr} {tiers : List Tier} (plain : Plain (.tiers tiers) expr)
    (looser : List Tier) : Plain (.tiers (looser ++ tiers)) expr := by
  induction looser with
  | nil => exact plain
  | cons tier looser ih => exact .tighter ih

theorem BinaryOperator.plain (operator : BinaryOperator) {left right : Expr} (leftPlain : Plain .owner left)
    (rightPlain : Plain .owner right) : Plain .ternary (.binary left operator.token [] right) := by
  obtain ⟨tier, known, joins⟩ := List.any_eq_true.mp operator.joins
  obtain ⟨looser, tighter, split⟩ := List.append_of_mem known
  have isOperator : operator.token.IsOperator tier.joins := ⟨joins, rfl⟩
  have suffix : tier :: tighter <:+ Tier.all := ⟨looser, split.symm⟩
  have here : Plain (.tiers (tier :: tighter)) (.binary left operator.token [] right) := by
    cases side : tier.side with
    | left =>
      exact .leftward suffix side (leftPlain.unary_of_owner.tiers_of_unary _) isOperator
        (rightPlain.unary_of_owner.tiers_of_unary _)
    | right =>
      exact .rightward suffix side (leftPlain.unary_of_owner.tiers_of_unary _) isOperator
        (rightPlain.unary_of_owner.tiers_of_unary _)
  have all := plain_tiers_append here looser
  rw [← split] at all
  exact .binary all

theorem joined_operand {operator : Token} {left : Expr} (plain : Plain .owner left) (right : Expr) :
    Expr.joined operator left right = match right with
      | .assign target assigns after value =>
        .assign (.binary left operator [] target) assigns after value
      | _ => .binary left operator [] right := by
  cases plain <;> cases right <;> rfl

theorem joined_of_operands {operator : Token} {left right : Expr} (leftPlain : Plain .owner left)
    (rightPlain : Plain .owner right) : Expr.joined operator left right = .binary left operator [] right := by
  rw [joined_operand leftPlain]
  cases rightPlain <;> rfl

theorem BinaryOperator.plain_joined (operator : BinaryOperator) {left right : Expr} (leftChained : Chained left)
    (rightChained : Chained right) : Plain .assignment (Expr.joined operator.token left right) := by
  induction leftChained with
  | operand leftPlain =>
    cases rightChained with
    | operand rightPlain =>
      rw [joined_of_operands leftPlain rightPlain]
      exact .value (operator.plain leftPlain rightPlain)
    | assign name assigns chained =>
      rw [joined_operand leftPlain]
      exact .assign (operator.plain leftPlain (.identifier name)) assigns chained.plain
  | assign name assigns _ ih => exact .assign (Plain.identifier name).unary_of_owner.ternary_of_unary assigns ih

theorem pieces_joined {operator : Token} {left right : Expr} (leftChained : Chained left)
    (rightChained : Chained right) : (Expr.joined operator left right).pieces =
      left.pieces ++ none :: some operator :: none :: right.pieces := by
  induction leftChained with
  | operand leftPlain =>
    cases rightChained with
    | operand rightPlain => rw [joined_of_operands leftPlain rightPlain, Expr.pieces]
    | assign name assigns chained =>
      rw [joined_operand leftPlain]
      simp [Expr.pieces]
  | assign name assigns _ ih =>
    rw [Expr.joined, Expr.pieces, ih]
    simp [Expr.pieces]

namespace Expression

mutual

theorem chained : ∀ expression : Expression, Chained expression.tree
  | .name word => .operand (.identifier word.isName_token)
  | .number digits => .operand (.literal digits.isLiteral_token)
  | .call callee arguments => by
    rw [tree]
    refine .operand (.call callee.isName_token (fun item member => ?_) fun item member => ?_)
    · exact (items_chained arguments item member).1
    · exact (items_chained arguments item member).2.plain
  | .assign target operator value => .assign target.isName_token operator.isOperator value.chained
  | .binary left operator right => .operand (.grouping (operator.plain_joined left.chained right.chained))

theorem items_chained : ∀ arguments : List Expression, ∀ item ∈ items arguments,
    item.trailing = [] ∧ Chained item.value
  | [], _, member => nomatch member
  | first :: others, item, member => by
    rw [items, List.mem_cons] at member
    obtain rfl | member := member
    · exact ⟨rfl, first.chained⟩
    · exact items_chained others item member

end

theorem plain (expression : Expression) : Plain .assignment expression.tree :=
  expression.chained.plain

end Expression

theorem Condition.plain : ∀ condition : Condition, Plain .owner condition.tree
  | .enclosed value => .grouping value.plain
  | .binary left operator right => .grouping (operator.plain_joined left.chained right.chained)

theorem Condition.spaced (condition : Condition) : condition.tree.spaced = true := by
  cases condition <;> rfl

theorem plain_declared (name : Name) (value : Expression) : Plain .assignment (declared name value) :=
  .assign (Plain.identifier name.isName_token).unary_of_owner.ternary_of_unary ⟨rfl, rfl⟩ value.plain

end Plain

section Text

theorem wovenText_none (pieces : List Piece) : wovenText (none :: pieces) = ' ' :: wovenText pieces := rfl

theorem wovenText_some (token : Token) (pieces : List Piece) :
    wovenText (some token :: pieces) = token.lexeme.toList ++ wovenText pieces := rfl

theorem wovenText_mark (symbol : Symbol) (pieces : List Piece) :
    wovenText (mark symbol :: pieces) = symbol.text.toList ++ wovenText pieces := rfl

theorem wovenText_nil : wovenText [] = [] := rfl

theorem Name.lexeme_token (name : Name) : name.token.lexeme = name.text := rfl

theorem Number.lexeme_token (number : Number) : number.token.lexeme = number.text := rfl

theorem lexeme_ofKind (kind : Kind) : (Token.ofKind kind).lexeme = kind.fixedText := rfl

namespace Expression

mutual

theorem toList_render : ∀ expression : Expression,
    expression.render.toList = wovenText expression.tree.pieces
  | .name word => by simp [render, tree, Expr.pieces, wovenText_some, wovenText_nil, Name.lexeme_token]
  | .number digits => by
    simp [render, tree, Expr.pieces, wovenText_some, wovenText_nil, Number.lexeme_token]
  | .call callee arguments => by
    simp [render, tree, Expr.pieces, toList_renderList arguments, wovenText_some, wovenText_mark,
      wovenText_nil, Name.lexeme_token, Symbol.text]
  | .assign target operator value => by
    simp [render, tree, Expr.pieces, toList_render value, wovenText_some, wovenText_none,
      Name.lexeme_token, AssignmentOperator.token, lexeme_ofKind, Kind.fixedText]
  | .binary left operator right => by
    simp [render, tree, Expr.pieces, pieces_joined left.chained right.chained, toList_render left,
      toList_render right, wovenText_some, wovenText_none, wovenText_mark, wovenText_nil,
      BinaryOperator.token, lexeme_ofKind, Symbol.text]

theorem toList_renderList : ∀ arguments : List Expression,
    (renderList arguments).toList = wovenText (separated (Expr.itemPieces (items arguments)))
  | [] => rfl
  | [only] => toList_render only
  | first :: second :: others => by
    have later := toList_renderList (second :: others)
    simp only [items, Expr.itemPieces] at later
    simp [renderList, items, Expr.itemPieces, separated, toList_render first, later, wovenText_mark,
      wovenText_none, Symbol.text]

end

end Expression

theorem Condition.toList_render (condition : Condition) :
    condition.render.toList = wovenText condition.tree.pieces := by
  cases condition with
  | enclosed value =>
    simp [render, tree, Expr.pieces, Expression.toList_render, wovenText_mark, wovenText_nil, Symbol.text]
  | binary left operator right => exact Expression.toList_render _

theorem wovenText_declared (name : Name) (value : Expression) :
    wovenText (declared name value).pieces = name.text.toList ++ " = ".toList ++ value.render.toList := by
  simp [declared, Expr.pieces, Expression.toList_render, wovenText_some, wovenText_none, Name.lexeme_token,
    lexeme_ofKind, Kind.fixedText, Symbol.text]

theorem toList_margin (depth : Nat) : (margin depth).toList = List.replicate (4 * depth) ' ' :=
  String.toList_ofList

mutual

theorem Statement.left_zero : ∀ statement : Statement, statement.left 0 0 = 0
  | .expression _ | .declaration _ _ => rfl
  | .conditional choice => choice.left_zero
  | .loop _ _ body => by simp [Statement.left, leftBehind, body.left_zero]

theorem Conditional.left_zero : ∀ choice : Conditional, choice.left 0 0 = 0
  | .plain _ body => by simp [Conditional.left, leftBehind, body.left_zero]
  | .withElse _ body other => by simp [Conditional.left, leftBehind, body.left_zero, other.left_zero]
  | .withElseIf _ body other => by simp [Conditional.left, leftBehind, body.left_zero, other.left_zero]

theorem Body.left_zero : ∀ body : Body, body.left 0 0 = 0
  | .last statement => statement.left_zero
  | .cons statement others => by rw [Body.left, statement.left_zero, others.left_zero]

end

theorem leftBehind_zero (body : Body) : leftBehind 0 body.isLone (body.left 0) 0 = 0 := by
  simp [leftBehind, body.left_zero]

theorem wovenText_blockPieces {depth : Nat} {inside : List Piece} {text : String}
    (spelt : text.toList = List.replicate (4 * (depth + 1)) ' ' ++ wovenText inside ++ ['\n']) :
    (renderBlock depth text).toList = wovenText (blockPieces depth inside) := by
  simp [renderBlock, blockPieces, spelt, wovenText_mark, wovenText_nil, wovenText_rowStart, toList_margin,
    Symbol.text]

theorem wovenText_headed (word : Keyword) (condition : Condition) (block : List Piece) :
    wovenText (headed word condition block) =
      word.text.toList ++ ' ' :: condition.render.toList ++ ' ' :: wovenText block := by
  simp [headed, wovenText_some, wovenText_none, condition.toList_render, lexeme_ofKind, Kind.fixedText]

theorem wovenText_otherwise : wovenText otherwise = " else ".toList := by
  simp [otherwise, wovenText_some, wovenText_none, wovenText_nil, lexeme_ofKind, Kind.fixedText, Keyword.text]

mutual

theorem Statement.toList_render : ∀ (statement : Statement) (depth : Nat),
    (statement.render depth).toList =
      List.replicate (4 * depth) ' ' ++ wovenText (statement.pieces 0 depth 0) ++ ['\n']
  | .expression value, depth => by
    simp [Statement.render, Statement.pieces, toList_margin, Expression.toList_render, wovenText_mark,
      wovenText_nil, Symbol.text]
  | .declaration name value, depth => by
    simp [Statement.render, Statement.pieces, toList_margin, wovenText_declared, wovenText_some,
      wovenText_none, wovenText_mark, wovenText_nil, lexeme_ofKind, Kind.fixedText, Keyword.text, Symbol.text]
  | .conditional choice, depth => by
    simp [Statement.render, Statement.pieces, toList_margin, choice.toList_render depth]
  | .loop word condition body, depth => by
    have inside := wovenText_blockPieces (body.toList_render (depth + 1))
    simp [Statement.render, Statement.pieces, toList_margin, wovenText_headed, inside]

theorem Conditional.toList_render : ∀ (choice : Conditional) (depth : Nat),
    (choice.render depth).toList = wovenText (choice.pieces 0 depth 0) ++ ['\n']
  | .plain condition body, depth => by
    have inside := wovenText_blockPieces (body.toList_render (depth + 1))
    simp [Conditional.render, Conditional.pieces, wovenText_headed, inside, Keyword.text]
  | .withElse condition body other, depth => by
    have inside := wovenText_blockPieces (body.toList_render (depth + 1))
    have otherInside := wovenText_blockPieces (other.toList_render (depth + 1))
    simp [Conditional.render, Conditional.pieces, wovenText_headed, inside, otherInside, Keyword.text,
      leftBehind_zero, wovenText_otherwise]
  | .withElseIf condition body other, depth => by
    have inside := wovenText_blockPieces (body.toList_render (depth + 1))
    simp [Conditional.render, Conditional.pieces, wovenText_headed, inside, other.toList_render depth,
      Keyword.text, leftBehind_zero, wovenText_otherwise]

theorem Body.toList_render : ∀ (body : Body) (depth : Nat),
    (body.render depth).toList =
      List.replicate (4 * depth) ' ' ++ wovenText (body.pieces 0 depth 0) ++ ['\n']
  | .last statement, depth => statement.toList_render depth
  | .cons statement others, depth => by
    simp [Body.render, Body.pieces, statement.toList_render depth, others.toList_render depth,
      statement.left_zero, wovenText_rowStart]

end

theorem Body.toList_program (program : Body) :
    (program.render 0).toList = wovenText (program.pieces 0 0 0 ++ rowStart 0) := by
  rw [program.toList_render]
  simp [wovenText_rowStart]

end Text

section Legible

open Munch (isIndent)

theorem spelled_word (word : Keyword) : (Token.ofKind (.keyword word)).Spelled :=
  Token.spelled_keyword rfl rfl

theorem legible_mark {symbol : Symbol} (inert : symbol ∈ inertMarks) (more : List Char) :
    Legible [mark symbol] more :=
  .of_spelled (Token.spelled_mark (ne_hash_of_inert inert)) fun c _ => Token.takesUp_inert inert c

/-- Pieces that are read in front of everything, and that a row can start with. -/
structure Clear (pieces : List Piece) : Prop where
  legible : ∀ more, Legible pieces more
  starts : ∃ token, pieces.head? = some (some token) ∧ token.Spelled

theorem Clear.stops {pieces : List Piece} (clear : Clear pieces) (more : List Char) :
    Stops isIndent (wovenText pieces ++ more) := by
  obtain ⟨token, head, spelled⟩ := clear.starts
  cases pieces with
  | nil => cases head
  | cons piece pieces =>
    obtain rfl := Option.some.inj head
    obtain ⟨c, text, shape⟩ := List.exists_cons_of_ne_nil spelled.ne_nil
    have visible := (spelled.cut [] .nil).visible
    rw [shape] at visible
    rw [wovenText_some, shape]
    exact .cons (Bool.or_eq_false_iff.mp visible).1

theorem Clear.append_row {pieces others : List Piece} (clear : Clear pieces) (depth : Nat)
    (back : Clear others) : Clear (pieces ++ rowStart depth ++ others) where
  legible more := by
    rw [List.append_assoc]
    exact (clear.legible _).append ((Legible.rowStart (back.stops more)).append (back.legible more))
  starts := by
    obtain ⟨token, head, spelled⟩ := clear.starts
    exact ⟨token, by simp [List.head?_append, head], spelled⟩

theorem clear_mark {symbol : Symbol} (inert : symbol ∈ inertMarks) : Clear [mark symbol] where
  legible := legible_mark inert
  starts := ⟨_, rfl, Token.spelled_mark (ne_hash_of_inert inert)⟩

theorem clear_block {depth : Nat} {inside : List Piece} (clear : Clear inside) :
    Clear (blockPieces depth inside) := by
  have opening : Clear [mark .leftBrace] := clear_mark (by decide)
  have closing : Clear [mark .rightBrace] := clear_mark (by decide)
  exact (opening.append_row (depth + 1) clear).append_row depth closing

theorem clear_headed (word : Keyword) (condition : Condition) {block : List Piece} (clear : Clear block) :
    Clear (headed word condition block) where
  legible more := by
    obtain ⟨first, last, woven⟩ := condition.plain.woven
    have front := weave_mark_space (spelled_word word) nofun woven.weave
    refine (Legible.of_weave front ?_).append (Legible.space.append (clear.legible more))
    exact .cons (Token.takesUp_space woven.noBreak)
  starts := ⟨_, rfl, spelled_word word⟩

theorem Clear.append_otherwise {pieces others : List Piece} (clear : Clear pieces) (back : Clear others) :
    Clear (pieces ++ otherwise ++ others) where
  legible more := by
    have word : ∀ more, Legible [some (.ofKind (.keyword .elseWord))] (' ' :: more) := fun more =>
      .of_spelled (spelled_word _) (.cons (Token.takesUp_space nofun))
    rw [List.append_assoc]
    exact (clear.legible _).append (Legible.space.append ((word _).append
      (Legible.space.append (back.legible more))))
  starts := by
    obtain ⟨token, head, spelled⟩ := clear.starts
    exact ⟨token, by simp [List.head?_append, head], spelled⟩

theorem clear_closed {expr : Expr} (plain : Plain .assignment expr) :
    Clear (expr.pieces ++ [mark .semicolon]) := by
  obtain ⟨first, last, woven⟩ := plain.woven
  have weave := woven.join (.single (Token.spelled_mark (show Symbol.semicolon ≠ .hash by decide))) rfl rfl
    (by decide)
  exact ⟨fun more => .of_weave weave fun c _ => Token.takesUp_inert (by decide) c,
    first, weave.head, weave.spelled first (List.mem_of_mem_head? weave.head)⟩

mutual

theorem Statement.clear : ∀ (statement : Statement) (depth : Nat), Clear (statement.pieces 0 depth 0)
  | .expression value, _ => clear_closed value.plain
  | .declaration name value, _ => by
    have front := clear_closed (plain_declared name value)
    refine ⟨fun more => ?_, _, rfl, spelled_word .varWord⟩
    refine @Legible.append [some (.ofKind (.keyword .varWord))] _ _ ?_
      (Legible.space.append (front.legible more))
    exact .of_spelled (spelled_word _) (.cons (Token.takesUp_space nofun))
  | .conditional choice, depth => choice.clear depth
  | .loop word condition body, depth => by
    simp only [Statement.pieces, ite_self, Nat.add_zero]
    exact clear_headed word.keyword condition (clear_block (body.clear (depth + 1)))

theorem Conditional.clear : ∀ (choice : Conditional) (depth : Nat), Clear (choice.pieces 0 depth 0)
  | .plain condition body, depth => by
    simp only [Conditional.pieces, ite_self, Nat.add_zero]
    exact clear_headed .ifWord condition (clear_block (body.clear (depth + 1)))
  | .withElse condition body other, depth => by
    simp only [Conditional.pieces, ite_self, Nat.add_zero, leftBehind_zero]
    exact (clear_headed .ifWord condition (clear_block (body.clear (depth + 1)))).append_otherwise
      (clear_block (other.clear (depth + 1)))
  | .withElseIf condition body other, depth => by
    simp only [Conditional.pieces, ite_self, Nat.add_zero, leftBehind_zero]
    exact (clear_headed .ifWord condition (clear_block (body.clear (depth + 1)))).append_otherwise
      (other.clear depth)

theorem Body.clear : ∀ (body : Body) (depth : Nat), Clear (body.pieces 0 depth 0)
  | .last statement, depth => statement.clear depth
  | .cons statement others, depth => by
    rw [Body.pieces, statement.left_zero]
    exact (statement.clear depth).append_row depth (others.clear depth)

end

theorem scan_render (program : Body) : (scan (program.render 0)).map Token.unplaced =
    (wovenTokens (program.pieces 0 0 0 ++ rowStart 0)).map Token.unplaced :=
  scan_legible (((program.clear 0).legible _).append (.rowStart .nil)) program.toList_program

end Legible

end Canonical

end GmlLayout
