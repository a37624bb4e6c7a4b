import GmlLayout.Grammar.Statement
import GmlLayout.Layout.Statement
import GmlLayout.Tree.Dump

/-!
Formatting of source text.
-/

namespace GmlLayout

def Page.blank (settings : Settings) : Page where
  settings := settings

def layOut (settings : Settings) (program : List Stmt) : Page :=
  ((Print.program program).run (Page.blank settings)).2

def format (settings : Settings) (source : String) : Except ParseError String := do
  let program ← parse source
  return (layOut settings program).output

/-- The formatted text, together with the text of the tree it was made from. -/
def formatWithTree (settings : Settings) (source : String) : Except ParseError (String × String) := do
  let program ← parse source
  return ((layOut settings program).output, Stmt.dumpProgram program)

/-- Formats a source, then each result again, `times` times in all; a failure ends the list. -/
def formatAgain (settings : Settings) : Nat → String → List (Except ParseError String)
  | 0, _ => []
  | times + 1, source =>
    match format settings source with
    | .ok output => .ok output :: formatAgain settings times output
    | .error cause => [.error cause]

def ignorePragma : String :=
  "// @gml_fmt ignore"

def occursIn (part : List Char) : List Char → Bool
  | [] => part.isEmpty
  | c :: text => part.isPrefixOf (c :: text) || occursIn part text

def isIgnored (source : String) : Bool :=
  occursIn ignorePragma.toList source.toList

end GmlLayout
