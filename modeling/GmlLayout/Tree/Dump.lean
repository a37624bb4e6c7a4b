import GmlLayout.Text.Json
import GmlLayout.Tree.Stmt

/-!
The tree as a JSON document. A node is an object that names its sort first and then lists all its
fields in a fixed order; a token is an object with its kind and position, and its text or indentation
hint if it carries one; an empty trivia slot is `null`.
-/

namespace GmlLayout

namespace Token

def dump (token : Token) : Json :=
  let place : List (String × Json) :=
    [("token", .text token.kind.name), ("at", .text s!"{token.line}:{token.column}")]
  match token.payload with
  | .none => .object place
  | .text content => .object (place ++ [("value", .text content)])
  | .hint levels => .object (place ++ [("value", .int levels)])

def dumpSlot (trivia : Trivia) : Json :=
  if trivia.isEmpty then .null else .list (trivia.map dump)

end Token

open Token (dumpSlot)

namespace Json

def node (sort : String) (fields : List (String × Json)) : Json :=
  .object (("node", .text sort) :: fields)

end Json

namespace Series

def dumpWith (items : List Json) (endDelimited : Bool) : Json :=
  .node "DelimitedLines" [("lines", .list items), ("has_end_delimiter", .bool endDelimited)]

def dumpItem (value : Json) (trailing : Trivia) : Json :=
  .node "DelimitedLine" [("expr", value), ("trailing", dumpSlot trailing)]

end Series

namespace Expr

mutual

def dump : Expr → Json
  | .call callee afterOpen ⟨arguments, endDelimited⟩ trailing =>
    .node "Call" [("trailing", dumpSlot trailing), ("callee", dump callee),
      ("after_lparen", dumpSlot afterOpen),
      ("arguments", Series.dumpWith (dumpItems arguments) endDelimited)]
  | .function afterKeyword signature afterSignature isConstructor trailing =>
    .node "Function" [("trailing", dumpSlot trailing), ("after_keyword", dumpSlot afterKeyword),
      ("call", dump signature), ("after_rparen", dumpSlot afterSignature),
      ("is_constructor", .bool isConstructor)]
  | .lifetime operator afterOperator operand trailing =>
    .node "StructOperator" [("trailing", dumpSlot trailing), ("operator", operator.dump),
      ("after_operator", dumpSlot afterOperator), ("operand", dump operand)]
  | .binary left operator afterOperator right =>
    .node "Binary" [("trailing", .null), ("left", dump left), ("operator", operator.dump),
      ("after_operator", dumpSlot afterOperator), ("right", dump right)]
  | .grouping afterOpen inner afterClose =>
    .node "Grouping" [("trailing", .null), ("after_lparen", dumpSlot afterOpen),
      ("expressions", .list (dumpAll inner)), ("after_rparen", dumpSlot afterClose)]
  | .array afterOpen ⟨elements, endDelimited⟩ =>
    .node "ArrayLiteral" [("trailing", .null), ("after_lbracket", dumpSlot afterOpen),
      ("elements", Series.dumpWith (dumpItems elements) endDelimited)]
  | .literal token after =>
    .node "Literal" [("trailing", .null), ("token", token.dump), ("comments", dumpSlot after)]
  | .numberStartDot token after =>
    .node "NumberStartDot" [("trailing", .null), ("token", token.dump),
      ("comments", dumpSlot after)]
  | .numberEndDot token after =>
    .node "NumberEndDot" [("trailing", .null), ("token", token.dump), ("comments", dumpSlot after)]
  | .unary operator afterOperator operand =>
    .node "Unary" [("trailing", .null), ("operator", operator.dump),
      ("after_operator", dumpSlot afterOperator), ("operand", dump operand)]
  | .step operand operator afterOperator =>
    .node "Postfix" [("trailing", .null), ("operand", dump operand), ("operator", operator.dump),
      ("after_operator", dumpSlot afterOperator)]
  | .assign target operator afterOperator value =>
    .node "Assign" [("trailing", .null), ("target", dump target), ("operator", operator.dump),
      ("after_operator", dumpSlot afterOperator), ("value", dump value)]
  | .identifier token after =>
    .node "Identifier" [("trailing", .null), ("name", token.dump), ("comments", dumpSlot after)]
  | .dotted owner afterDot member trailing =>
    .node "DotAccess" [("trailing", dumpSlot trailing), ("owner", dump owner),
      ("after_dot", dumpSlot afterDot), ("member", dump member)]
  | .access collection accessor indices trailing =>
    .node "DataStructureAccess" [("trailing", dumpSlot trailing), ("collection", dump collection),
      ("accessor", accessor.dump), ("indices", .list (dumpIndices indices))]
  | .ternary condition afterHook whenTrue afterColon whenFalse =>
    .node "Ternary" [("trailing", .null), ("condition", dump condition),
      ("after_hook", dumpSlot afterHook), ("then_branch", dump whenTrue),
      ("after_colon", dumpSlot afterColon), ("else_branch", dump whenFalse)]
  | .newline => .node "Newline" [("trailing", .null)]
  | .lineComment token => .node "Comment" [("trailing", .null), ("token", token.dump)]
  | .blockComment token => .node "MultilineComment" [("trailing", .null), ("token", token.dump)]
  | .unidentified token trailing =>
    .node "UnidentifiedAsLiteral" [("trailing", dumpSlot trailing), ("token", token.dump)]

def dumpAll : List Expr → List Json
  | [] => []
  | expr :: others => dump expr :: dumpAll others

def dumpItems : List (Item Expr) → List Json
  | [] => []
  | ⟨value, trailing⟩ :: others => Series.dumpItem (dump value) trailing :: dumpItems others

def dumpIndices : List (Trivia × Expr) → List Json
  | [] => []
  | (before, index) :: others => .list [dumpSlot before, dump index] :: dumpIndices others

end

def dump? : Option Expr → Json
  | none => .null
  | some expr => expr.dump

end Expr

namespace Variable

def dump (declared : Variable) : Json :=
  .node "VariableDecl" [("var_expr", declared.target.dump),
    ("say_var", match declared.keyword with | none => .null | some keyword => keyword.dump),
    ("say_var_comments", dumpSlot declared.afterKeyword)]

end Variable

namespace RemarkForm

def name : RemarkForm → String
  | .lineComment => "Comment"
  | .blockComment => "MultilineComment"
  | .regionBegin => "RegionBegin"
  | .regionEnd => "RegionEnd"
  | .macroLine => "Macro"

end RemarkForm

namespace Stmt

def name : Stmt → String
  | .declaration .. => "VariableDeclList"
  | .enumeration .. => "EnumDeclaration"
  | .expression .. => "ExpressionStatement"
  | .block .. => "Block"
  | .conditional .. => "If"
  | .loop .. => "WhileWithRepeat"
  | .doUntil .. => "DoUntil"
  | .forLoop .. => "For"
  | .switch .. => "Switch"
  | .returning .. => "Return"
  | .breaking .. => "Break"
  | .exiting .. => "Exit"
  | .remark form _ => form.name
  | .define .. => "Define"

/-- The fields that follow a statement's sort: first whether it has a semicolon, then its own. -/
def dumpNode (stmt : Stmt) (fields : List (String × Json)) : Json :=
  .node stmt.name (("has_semicolon", .bool stmt.hasSemicolon) :: fields)

mutual

def dump (stmt : Stmt) : Json :=
  stmt.dumpNode <| match stmt with
    | .declaration keyword afterKeyword declared _ =>
      [("keyword", keyword.dump), ("after_keyword", dumpSlot afterKeyword),
        ("declarations", Series.dumpWith
          (declared.items.map fun item => Series.dumpItem item.value.dump item.trailing)
          declared.endDelimited)]
    | .enumeration afterKeyword name afterOpen members _ =>
      [("after_keyword", dumpSlot afterKeyword), ("name", name.dump),
        ("after_lbrace", dumpSlot afterOpen),
        ("members", Series.dumpWith (Expr.dumpItems members.items) members.endDelimited)]
    | .expression expr _ => [("expr", expr.dump)]
    | .block afterOpen body _ =>
      [("after_lbrace", dumpSlot afterOpen), ("statements", .list (dumpAll body))]
    | .conditional afterKeyword condition whenTrue between afterElse whenFalse _ =>
      [("after_keyword", dumpSlot afterKeyword), ("condition", condition.dump),
        ("then_branch", dump whenTrue), ("between", dumpSlot between),
        ("after_else", dumpSlot afterElse),
        ("else_branch", match whenFalse with | none => .null | some branch => dump branch)]
    | .loop keyword afterKeyword condition body _ =>
      [("keyword", keyword.dump), ("after_keyword", dumpSlot afterKeyword),
        ("condition", condition.dump), ("body", dump body)]
    | .doUntil afterKeyword body between condition _ =>
      [("after_keyword", dumpSlot afterKeyword), ("body", dump body),
        ("between", dumpSlot between), ("condition", condition.dump)]
    | .forLoop afterKeyword afterOpen start afterStart condition afterCondition increment
        afterIncrement afterClose body _ =>
      [("after_keyword", dumpSlot afterKeyword), ("after_lparen", dumpSlot afterOpen),
        ("initializer", match start with | none => .null | some start => dump start),
        ("after_initializer", dumpSlot afterStart), ("condition", Expr.dump? condition),
        ("after_condition", dumpSlot afterCondition), ("increment", Expr.dump? increment),
        ("after_increment", dumpSlot afterIncrement), ("after_rparen", dumpSlot afterClose),
        ("body", dump body)]
    | .switch afterKeyword subject afterOpen cases _ =>
      [("after_keyword", dumpSlot afterKeyword), ("condition", subject.dump),
        ("after_lbrace", dumpSlot afterOpen), ("cases", .list (dumpCases cases))]
    | .returning value _ => [("expr", Expr.dump? value)]
    | .breaking _ => []
    | .exiting _ => []
    | .remark _ token => [("token", token.dump)]
    | .define afterKeyword name body =>
      [("after_keyword", dumpSlot afterKeyword), ("script_name", name.dump),
        ("body", .list (dumpAll body))]

def dumpAll : List Stmt → List Json
  | [] => []
  | stmt :: others => dump stmt :: dumpAll others

def dumpCases : List (Case Stmt) → List Json
  | [] => []
  | ⟨label, afterKeyword, afterColon, body⟩ :: others =>
    .node "Case" [("constant", Expr.dump? label), ("after_keyword", dumpSlot afterKeyword),
      ("after_colon", dumpSlot afterColon), ("statements", .list (dumpAll body))]
      :: dumpCases others

end

def dumpProgram (program : List Stmt) : String :=
  (Json.list (dumpAll program)).render

end Stmt

end GmlLayout
