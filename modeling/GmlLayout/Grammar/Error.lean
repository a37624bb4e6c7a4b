import GmlLayout.Diagnostic.Basic
import GmlLayout.Diagnostic.Guidance
import GmlLayout.Token.Basic

/-!
Why a source text is refused.
-/

namespace GmlLayout

inductive ParseError where
  /-- The token cannot stand where an expression is due. -/
  | unexpectedToken (token : Token)
  /-- The token stands between the branches of a switch and starts none. -/
  | unknownInSwitch (token : Token)
  /-- The text ended inside a statement or an expression. -/
  | unexpectedEnd
deriving DecidableEq, Repr

namespace ParseError

def atToken (token : Token) (what fix : String) (sample : Option String) : Diagnostic where
  message := Guidance.text
    { what := s!"{what} at line {token.line + 1}, column {token.column + 1}."
      why := some "The formatter only rewrites code it can parse into statements."
      fix := some fix
      sample := sample }
  line := some (token.line + 1)
  column := some (token.column + 1)
  details := [("token", token.kind.name)]

def diagnostic : ParseError → Diagnostic
  | .unexpectedToken token =>
    atToken token s!"Error parsing '{token.lexeme}'"
      "Check the code around this token for a typo or a missing delimiter." none
  | .unknownInSwitch token =>
    atToken token s!"Unknown token '{token.lexeme}' in switch statement"
      "Start every branch of a switch with `case <value>:` or `default:`."
      (some "switch (state) \x7b case 0: run(); break; \x7d")
  | .unexpectedEnd =>
    { message := Guidance.text
        { what := "Unexpected end of input."
          why := some "The source ended while a statement or expression was still open."
          fix := some "Finish the statement or close the open bracket." } }

end ParseError

end GmlLayout
