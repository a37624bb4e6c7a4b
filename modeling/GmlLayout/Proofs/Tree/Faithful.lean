import GmlLayout.Proofs.Text.Document
import GmlLayout.Proofs.Token.Spelling
import GmlLayout.Proofs.Tree.Formed
import GmlLayout.Tree.Dump

/-!
The dump of an expression determines the expression. A node names its sort and then every field, a token its
kind, place and payload, and an empty slot looks like no list of tokens. Only the kinds that source text can
have are told apart by their names, so the tokens have to be native.
-/

namespace GmlLayout

namespace Kind

theorem ofName_name {kind : Kind} (native : kind ∈ all) : ofName kind.name = kind := by
  revert kind
  decide +kernel

theorem name_inj {kind other : Kind} (native : kind ∈ all) (known : other ∈ all)
    (same : kind.name = other.name) : kind = other := by
  rw [← ofName_name native, same, ofName_name known]

end Kind

theorem Spells.native {kind : Kind} {text : List Char} (spells : Spells kind text) : kind ∈ Kind.all := by
  cases spells with
  | symbol mark => simp [Kind.all, Symbol.mem_all]
  | keyword word => simp [Kind.all, Keyword.mem_all]
  | _ => decide

namespace Token

def Native (token : Token) : Prop :=
  token.kind ∈ Kind.all

theorem native_of_mem_scan {source : String} {token : Token} (member : token ∈ scan source) :
    token.Native := by
  by_cases line : token.kind = .newline
  · simp [Native, line, Kind.all]
  · exact (spells_of_mem_scan member line).native

theorem place_inj {line column row place : Nat} (same : s!"{line}:{column}" = s!"{row}:{place}") :
    line = row ∧ column = place := by
  have texts : toString line ++ ":" ++ toString column = toString row ++ ":" ++ toString place := same
  have chars : Nat.toDigits 10 line ++ ':' :: Nat.toDigits 10 column =
      Nat.toDigits 10 row ++ ':' :: Nat.toDigits 10 place := by
    simpa [Nat.repr_eq_ofList_toDigits] using congrArg String.toList texts
  obtain ⟨rfl, columns⟩ := Json.toDigits_append_inj (.cons rfl _) (.cons rfl _) chars
  have digits : Nat.toDigits 10 column ++ [] = Nat.toDigits 10 place ++ [] := by
    simpa using List.tail_eq_of_cons_eq columns
  exact ⟨rfl, (Json.toDigits_append_inj .nil .nil digits).1⟩

theorem dump_inj {token other : Token} (native : token.Native) (known : other.Native)
    (same : token.dump = other.dump) : token = other := by
  obtain ⟨kind, payload, line, column⟩ := token
  obtain ⟨sort, content, row, place⟩ := other
  have fields : kind.name = sort.name ∧ s!"{line}:{column}" = s!"{row}:{place}" ∧ payload = content := by
    cases payload <;> cases content <;> simp_all [dump]
  obtain ⟨names, places, rfl⟩ := fields
  obtain ⟨rfl, rfl⟩ := place_inj places
  obtain rfl : kind = sort := Kind.name_inj native known names
  rfl

theorem dump_ne_null (token : Token) : token.dump ≠ .null := by
  unfold dump
  split <;> simp

theorem map_dump_inj {tokens others : List Token} (native : ∀ token ∈ tokens, token.Native)
    (known : ∀ token ∈ others, token.Native) (same : tokens.map dump = others.map dump) :
    tokens = others := by
  induction tokens generalizing others with
  | nil => exact (List.map_eq_nil_iff.mp same.symm).symm
  | cons token tokens ih =>
    cases others with
    | nil => cases same
    | cons other others =>
      obtain ⟨first, rest⟩ := List.cons.inj same
      rw [List.forall_mem_cons] at native known
      rw [dump_inj native.1 known.1 first, ih native.2 known.2 rest]

theorem dumpSlot_inj {slot other : Trivia} (formed : SlotFormed Native slot)
    (known : SlotFormed Native other) (same : dumpSlot slot = dumpSlot other) : slot = other := by
  have lists : slot.map dump = other.map dump := by
    cases slot <;> cases other <;> simp_all [dumpSlot]
  exact map_dump_inj (fun token member => (formed token member).1)
    (fun token member => (known token member).1) lists

end Token

namespace Json

theorem node_inj {sort name : String} {fields others : List (String × Json)} :
    node sort fields = node name others ↔ sort = name ∧ fields = others := by
  simp [node]

theorem fields_inj {key : String} {value other : Json} {fields others : List (String × Json)} :
    (key, value) :: fields = (key, other) :: others ↔ value = other ∧ fields = others := by
  simp

end Json

namespace Series

theorem dumpWith_inj {items others : List Json} {ended closed : Bool} :
    dumpWith items ended = dumpWith others closed ↔ items = others ∧ ended = closed := by
  simp [dumpWith, Json.node]

theorem dumpItem_inj {value other : Json} {trailing behind : Trivia} :
    dumpItem value trailing = dumpItem other behind ↔
      value = other ∧ Token.dumpSlot trailing = Token.dumpSlot behind := by
  simp [dumpItem, Json.node]

end Series

namespace Expr

open Token (Native dumpSlot dumpSlot_inj)

def label : Expr → String
  | .call .. => "Call"
  | .function .. => "Function"
  | .lifetime .. => "StructOperator"
  | .binary .. => "Binary"
  | .grouping .. => "Grouping"
  | .array .. => "ArrayLiteral"
  | .literal .. => "Literal"
  | .numberStartDot .. => "NumberStartDot"
  | .numberEndDot .. => "NumberEndDot"
  | .unary .. => "Unary"
  | .step .. => "Postfix"
  | .assign .. => "Assign"
  | .identifier .. => "Identifier"
  | .dotted .. => "DotAccess"
  | .access .. => "DataStructureAccess"
  | .ternary .. => "Ternary"
  | .newline => "Newline"
  | .lineComment _ => "Comment"
  | .blockComment _ => "MultilineComment"
  | .unidentified .. => "UnidentifiedAsLiteral"

theorem exists_dump_eq (expr : Expr) : ∃ fields, expr.dump = .node expr.label fields := by
  cases expr <;> exact ⟨_, by rw [dump]; rfl⟩

theorem label_eq {expr other : Expr} (same : expr.dump = other.dump) : expr.label = other.label := by
  obtain ⟨fields, shape⟩ := exists_dump_eq expr
  obtain ⟨fields', shape'⟩ := exists_dump_eq other
  rw [shape, shape', Json.node_inj] at same
  exact same.1

/-- No other expression with native tokens has the same dump. -/
def Determined (expr : Expr) : Prop :=
  expr.Formed Native → ∀ other : Expr, other.Formed Native → expr.dump = other.dump → expr = other

def DeterminedAll (exprs : List Expr) : Prop :=
  ListFormed Native exprs → ∀ others, ListFormed Native others →
    dumpAll exprs = dumpAll others → exprs = others

def DeterminedItems (items : List (Item Expr)) : Prop :=
  ItemsFormed Native items → ∀ others, ItemsFormed Native others →
    dumpItems items = dumpItems others → items = others

def DeterminedIndices (indices : List (Trivia × Expr)) : Prop :=
  IndicesFormed Native indices → ∀ others, IndicesFormed Native others →
    dumpIndices indices = dumpIndices others → indices = others

attribute [simp] dump

namespace Determined

theorem call {callee : Expr} {afterOpen trailing : Trivia} {items : List (Item Expr)} {ended : Bool}
    (first : Determined callee) (rest : DeterminedItems items) :
    Determined (.call callee afterOpen ⟨items, ended⟩ trailing) := by
  intro formed other known same
  have labels := label_eq same
  cases other with
  | call _ _ arguments =>
    obtain ⟨_, _⟩ := arguments
    simp only [dump, Json.node_inj, Json.fields_inj, Series.dumpWith_inj, true_and, and_true] at same
    obtain ⟨trailing, callee, opened, items, ended⟩ := same
    rw [first formed.1 _ known.1 callee, dumpSlot_inj formed.2.1 known.2.1 opened,
      rest formed.2.2.1 _ known.2.2.1 items, dumpSlot_inj formed.2.2.2 known.2.2.2 trailing, ended]
  | _ => simp [label] at labels

theorem function {signature : Expr} {afterKeyword afterSignature trailing : Trivia} {isConstructor : Bool}
    (inner : Determined signature) :
    Determined (.function afterKeyword signature afterSignature isConstructor trailing) := by
  intro formed other known same
  have labels := label_eq same
  cases other with
  | function =>
    simp only [dump, Json.node_inj, Json.fields_inj, Json.bool.injEq, true_and, and_true] at same
    obtain ⟨trailing, keyword, signature, closed, constructor⟩ := same
    rw [dumpSlot_inj formed.1 known.1 keyword, inner formed.2.1 _ known.2.1 signature,
      dumpSlot_inj formed.2.2.1 known.2.2.1 closed, dumpSlot_inj formed.2.2.2 known.2.2.2 trailing,
      constructor]
  | _ => simp [label] at labels

theorem lifetime {operator : Token} {operand : Expr} {afterOperator trailing : Trivia}
    (inner : Determined operand) : Determined (.lifetime operator afterOperator operand trailing) := by
  intro formed other known same
  have labels := label_eq same
  cases other with
  | lifetime =>
    simp only [dump, Json.node_inj, Json.fields_inj, true_and, and_true] at same
    obtain ⟨trailing, operator, between, operand⟩ := same
    rw [Token.dump_inj formed.1.1 known.1.1 operator, dumpSlot_inj formed.2.1 known.2.1 between,
      inner formed.2.2.1 _ known.2.2.1 operand, dumpSlot_inj formed.2.2.2 known.2.2.2 trailing]
  | _ => simp [label] at labels

theorem binary {operator : Token} {left right : Expr} {afterOperator : Trivia} (first : Determined left)
    (second : Determined right) : Determined (.binary left operator afterOperator right) := by
  intro formed other known same
  have labels := label_eq same
  cases other with
  | binary =>
    simp only [dump, Json.node_inj, Json.fields_inj, true_and, and_true] at same
    obtain ⟨left, operator, between, right⟩ := same
    rw [first formed.1 _ known.1 left, Token.dump_inj formed.2.2.1.1 known.2.2.1.1 operator,
      dumpSlot_inj formed.2.2.2.1 known.2.2.2.1 between, second formed.2.2.2.2 _ known.2.2.2.2 right]
  | _ => simp [label] at labels

theorem grouping {inner : List Expr} {afterOpen afterClose : Trivia} (all : DeterminedAll inner) :
    Determined (.grouping afterOpen inner afterClose) := by
  intro formed other known same
  have labels := label_eq same
  cases other with
  | grouping =>
    simp only [dump, Json.node_inj, Json.fields_inj, Json.list.injEq, true_and, and_true] at same
    obtain ⟨opened, inner, closed⟩ := same
    rw [dumpSlot_inj formed.1 known.1 opened, all formed.2.1 _ known.2.1 inner,
      dumpSlot_inj formed.2.2 known.2.2 closed]
  | _ => simp [label] at labels

theorem array {items : List (Item Expr)} {afterOpen : Trivia} {ended : Bool} (all : DeterminedItems items) :
    Determined (.array afterOpen ⟨items, ended⟩) := by
  intro formed other known same
  have labels := label_eq same
  cases other with
  | array _ elements =>
    obtain ⟨_, _⟩ := elements
    simp only [dump, Json.node_inj, Json.fields_inj, Series.dumpWith_inj, true_and, and_true] at same
    obtain ⟨opened, items, ended⟩ := same
    rw [dumpSlot_inj formed.1 known.1 opened, all formed.2 _ known.2 items, ended]
  | _ => simp [label] at labels

theorem literal {token : Token} {after : Trivia} : Determined (.literal token after) := by
  intro formed other known same
  have labels := label_eq same
  cases other with
  | literal =>
    simp only [dump, Json.node_inj, Json.fields_inj, true_and, and_true] at same
    obtain ⟨token, after⟩ := same
    rw [Token.dump_inj formed.1.1 known.1.1 token, dumpSlot_inj formed.2 known.2 after]
  | _ => simp [label] at labels

theorem numberStartDot {token : Token} {after : Trivia} : Determined (.numberStartDot token after) := by
  intro formed other known same
  have labels := label_eq same
  cases other with
  | numberStartDot =>
    simp only [dump, Json.node_inj, Json.fields_inj, true_and, and_true] at same
    obtain ⟨token, after⟩ := same
    rw [Token.dump_inj formed.1.1 known.1.1 token, dumpSlot_inj formed.2 known.2 after]
  | _ => simp [label] at labels

theorem numberEndDot {token : Token} {after : Trivia} : Determined (.numberEndDot token after) := by
  intro formed other known same
  have labels := label_eq same
  cases other with
  | numberEndDot =>
    simp only [dump, Json.node_inj, Json.fields_inj, true_and, and_true] at same
    obtain ⟨token, after⟩ := same
    rw [Token.dump_inj formed.1.1 known.1.1 token, dumpSlot_inj formed.2 known.2 after]
  | _ => simp [label] at labels

theorem unary {operator : Token} {operand : Expr} {afterOperator : Trivia} (inner : Determined operand) :
    Determined (.unary operator afterOperator operand) := by
  intro formed other known same
  have labels := label_eq same
  cases other with
  | unary =>
    simp only [dump, Json.node_inj, Json.fields_inj, true_and, and_true] at same
    obtain ⟨operator, between, operand⟩ := same
    rw [Token.dump_inj formed.1.1 known.1.1 operator, dumpSlot_inj formed.2.1 known.2.1 between,
      inner formed.2.2 _ known.2.2 operand]
  | _ => simp [label] at labels

theorem step {operator : Token} {operand : Expr} {afterOperator : Trivia} (inner : Determined operand) :
    Determined (.step operand operator afterOperator) := by
  intro formed other known same
  have labels := label_eq same
  cases other with
  | step =>
    simp only [dump, Json.node_inj, Json.fields_inj, true_and, and_true] at same
    obtain ⟨operand, operator, after⟩ := same
    rw [inner formed.1 _ known.1 operand, Token.dump_inj formed.2.1.1 known.2.1.1 operator,
      dumpSlot_inj formed.2.2 known.2.2 after]
  | _ => simp [label] at labels

theorem assign {operator : Token} {target value : Expr} {afterOperator : Trivia} (first : Determined target)
    (second : Determined value) : Determined (.assign target operator afterOperator value) := by
  intro formed other known same
  have labels := label_eq same
  cases other with
  | assign =>
    simp only [dump, Json.node_inj, Json.fields_inj, true_and, and_true] at same
    obtain ⟨target, operator, between, value⟩ := same
    rw [first formed.1 _ known.1 target, Token.dump_inj formed.2.1.1 known.2.1.1 operator,
      dumpSlot_inj formed.2.2.1 known.2.2.1 between, second formed.2.2.2 _ known.2.2.2 value]
  | _ => simp [label] at labels

theorem identifier {token : Token} {after : Trivia} : Determined (.identifier token after) := by
  intro formed other known same
  have labels := label_eq same
  cases other with
  | identifier =>
    simp only [dump, Json.node_inj, Json.fields_inj, true_and, and_true] at same
    obtain ⟨token, after⟩ := same
    rw [Token.dump_inj formed.1.1 known.1.1 token, dumpSlot_inj formed.2 known.2 after]
  | _ => simp [label] at labels

theorem dotted {owner member : Expr} {afterDot trailing : Trivia} (first : Determined owner)
    (second : Determined member) : Determined (.dotted owner afterDot member trailing) := by
  intro formed other known same
  have labels := label_eq same
  cases other with
  | dotted =>
    simp only [dump, Json.node_inj, Json.fields_inj, true_and, and_true] at same
    obtain ⟨trailing, owner, between, member⟩ := same
    rw [first formed.1 _ known.1 owner, dumpSlot_inj formed.2.1 known.2.1 between,
      second formed.2.2.1 _ known.2.2.1 member, dumpSlot_inj formed.2.2.2 known.2.2.2 trailing]
  | _ => simp [label] at labels

theorem access {accessor : Token} {collection : Expr} {indices : List (Trivia × Expr)} {trailing : Trivia}
    (first : Determined collection) (rest : DeterminedIndices indices) :
    Determined (.access collection accessor indices trailing) := by
  intro formed other known same
  have labels := label_eq same
  cases other with
  | access =>
    simp only [dump, Json.node_inj, Json.fields_inj, Json.list.injEq, true_and, and_true] at same
    obtain ⟨trailing, collection, accessor, indices⟩ := same
    rw [first formed.1 _ known.1 collection, Token.dump_inj formed.2.1.1 known.2.1.1 accessor,
      rest formed.2.2.1 _ known.2.2.1 indices, dumpSlot_inj formed.2.2.2 known.2.2.2 trailing]
  | _ => simp [label] at labels

theorem ternary {condition whenTrue whenFalse : Expr} {afterHook afterColon : Trivia}
    (first : Determined condition) (second : Determined whenTrue) (third : Determined whenFalse) :
    Determined (.ternary condition afterHook whenTrue afterColon whenFalse) := by
  intro formed other known same
  have labels := label_eq same
  cases other with
  | ternary =>
    simp only [dump, Json.node_inj, Json.fields_inj, true_and, and_true] at same
    obtain ⟨condition, hook, whenTrue, colon, whenFalse⟩ := same
    rw [first formed.1 _ known.1 condition, dumpSlot_inj formed.2.1 known.2.1 hook,
      second formed.2.2.1 _ known.2.2.1 whenTrue, dumpSlot_inj formed.2.2.2.1 known.2.2.2.1 colon,
      third formed.2.2.2.2 _ known.2.2.2.2 whenFalse]
  | _ => simp [label] at labels

theorem newline : Determined .newline := by
  intro formed other known same
  have labels := label_eq same
  cases other with
  | newline => rfl
  | _ => simp [label] at labels

theorem lineComment {token : Token} : Determined (.lineComment token) := by
  intro formed other known same
  have labels := label_eq same
  cases other with
  | lineComment =>
    simp only [dump, Json.node_inj, Json.fields_inj, true_and, and_true] at same
    rw [Token.dump_inj formed.1 known.1 same]
  | _ => simp [label] at labels

theorem blockComment {token : Token} : Determined (.blockComment token) := by
  intro formed other known same
  have labels := label_eq same
  cases other with
  | blockComment =>
    simp only [dump, Json.node_inj, Json.fields_inj, true_and, and_true] at same
    rw [Token.dump_inj formed.1 known.1 same]
  | _ => simp [label] at labels

theorem unidentified {token : Token} {trailing : Trivia} : Determined (.unidentified token trailing) := by
  intro formed other known same
  have labels := label_eq same
  cases other with
  | unidentified =>
    simp only [dump, Json.node_inj, Json.fields_inj, true_and, and_true] at same
    obtain ⟨trailing, token⟩ := same
    rw [Token.dump_inj formed.1.1 known.1.1 token, dumpSlot_inj formed.2 known.2 trailing]
  | _ => simp [label] at labels

theorem nil : DeterminedAll [] := by
  intro _ others _ same
  cases others with
  | nil => rfl
  | cons => simp [dumpAll] at same

theorem cons {expr : Expr} {exprs : List Expr} (here : Determined expr) (later : DeterminedAll exprs) :
    DeterminedAll (expr :: exprs) := by
  intro formed others known same
  cases others with
  | nil => simp [dumpAll] at same
  | cons other others =>
    obtain ⟨first, rest⟩ := List.cons.inj same
    rw [here formed.1 _ known.1 first, later formed.2 _ known.2 rest]

theorem itemsNil : DeterminedItems [] := by
  intro _ others _ same
  cases others with
  | nil => rfl
  | cons => simp [dumpItems] at same

theorem itemsCons {value : Expr} {trailing : Trivia} {items : List (Item Expr)} (here : Determined value)
    (later : DeterminedItems items) : DeterminedItems (⟨value, trailing⟩ :: items) := by
  intro formed others known same
  cases others with
  | nil => simp [dumpItems] at same
  | cons other others =>
    obtain ⟨first, rest⟩ := List.cons.inj same
    obtain ⟨value, trailing⟩ := Series.dumpItem_inj.mp first
    rw [here formed.1 _ known.1 value, dumpSlot_inj formed.2.1 known.2.1 trailing,
      later formed.2.2 _ known.2.2 rest]

theorem indicesNil : DeterminedIndices [] := by
  intro _ others _ same
  cases others with
  | nil => rfl
  | cons => simp [dumpIndices] at same

theorem indicesCons {before : Trivia} {index : Expr} {indices : List (Trivia × Expr)}
    (here : Determined index) (later : DeterminedIndices indices) : DeterminedIndices
    ((before, index) :: indices) := by
  intro formed others known same
  cases others with
  | nil => simp [dumpIndices] at same
  | cons other others =>
    obtain ⟨first, rest⟩ := List.cons.inj same
    simp only [Json.list.injEq, List.cons.injEq, and_true] at first
    obtain ⟨slot, index⟩ := first
    rw [dumpSlot_inj formed.1 known.1 slot, here formed.2.1 _ known.2.1 index,
      later formed.2.2 _ known.2.2 rest]

end Determined

mutual

theorem determined : (expr : Expr) → Determined expr
  | .call callee _ ⟨items, _⟩ _ => .call (determined callee) (determinedItems items)
  | .function _ signature .. => .function (determined signature)
  | .lifetime _ _ operand _ => .lifetime (determined operand)
  | .binary left _ _ right => .binary (determined left) (determined right)
  | .grouping _ inner _ => .grouping (determinedAll inner)
  | .array _ ⟨items, _⟩ => .array (determinedItems items)
  | .literal .. => .literal
  | .numberStartDot .. => .numberStartDot
  | .numberEndDot .. => .numberEndDot
  | .unary _ _ operand => .unary (determined operand)
  | .step operand .. => .step (determined operand)
  | .assign target _ _ value => .assign (determined target) (determined value)
  | .identifier .. => .identifier
  | .dotted owner _ member _ => .dotted (determined owner) (determined member)
  | .access collection _ indices _ => .access (determined collection) (determinedIndices indices)
  | .ternary condition _ whenTrue _ whenFalse =>
    .ternary (determined condition) (determined whenTrue) (determined whenFalse)
  | .newline => .newline
  | .lineComment _ => .lineComment
  | .blockComment _ => .blockComment
  | .unidentified .. => .unidentified

theorem determinedAll : (exprs : List Expr) → DeterminedAll exprs
  | [] => Determined.nil
  | expr :: exprs => Determined.cons (determined expr) (determinedAll exprs)

theorem determinedItems : (items : List (Item Expr)) → DeterminedItems items
  | [] => Determined.itemsNil
  | ⟨value, _⟩ :: items => Determined.itemsCons (determined value) (determinedItems items)

theorem determinedIndices : (indices : List (Trivia × Expr)) → DeterminedIndices indices
  | [] => Determined.indicesNil
  | (_, index) :: indices => Determined.indicesCons (determined index) (determinedIndices indices)

end

theorem dump_inj {expr other : Expr} (formed : expr.Formed Native) (known : other.Formed Native)
    (same : expr.dump = other.dump) : expr = other :=
  determined expr formed other known same

theorem dumpItems_inj {items others : List (Item Expr)} (formed : ItemsFormed Native items)
    (known : ItemsFormed Native others) (same : dumpItems items = dumpItems others) : items = others :=
  determinedItems items formed others known same

theorem dump_ne_null (expr : Expr) : expr.dump ≠ .null := by
  obtain ⟨fields, shape⟩ := exists_dump_eq expr
  simp [shape, Json.node]

theorem dump?_inj {expr other : Option Expr} (formed : OptionFormed Native expr)
    (known : OptionFormed Native other) (same : dump? expr = dump? other) : expr = other := by
  cases expr with
  | none =>
    cases other with
    | none => rfl
    | some other => exact absurd same.symm (dump_ne_null other)
  | some expr =>
    cases other with
    | none => exact absurd same (dump_ne_null expr)
    | some other => rw [dump_inj formed known same]

end Expr

end GmlLayout
