import GmlLayout.Command.Run
import GmlLayout.Main
import GmlLayout.Proofs.Layout.Neat
import GmlLayout.Proofs.Layout.Remarks
import GmlLayout.Proofs.Layout.Runaway
import GmlLayout.Proofs.Layout.Spacing
import GmlLayout.Proofs.Layout.Moves
import GmlLayout.Proofs.Layout.SteadyStatements
import GmlLayout.Proofs.Layout.NormalForm
import GmlLayout.Proofs.Layout.Lines
import GmlLayout.Proofs.Token.Weave
import GmlLayout.Proofs.Tree.Plain
import GmlLayout.Proofs.Tree.Woven
import GmlLayout.Proofs.Layout.PlainLayout
import GmlLayout.Proofs.Grammar.Leads
import GmlLayout.Proofs.Grammar.PlainParse
import GmlLayout.Proofs.Grammar.PlainProgram
import GmlLayout.Proofs.Layout.RoundTrip
import GmlLayout.Proofs.Layout.ExpressionContent
import GmlLayout.Proofs.Token.Lossless
import GmlLayout.Proofs.Layout.Isolation
import GmlLayout.Proofs.Layout.Intact
import GmlLayout.Proofs.Tree.Nesting
import GmlLayout.Proofs.Tree.Punctuated
import GmlLayout.Proofs.Layout.Punctuation
import GmlLayout.Proofs.Layout.WellNested
import GmlLayout.Proofs.Command.Effect
import GmlLayout.Proofs.Command.CheckMode
import GmlLayout.Proofs.Layout.CanonicalText
import GmlLayout.Proofs.Layout.TokensApart
import GmlLayout.Proofs.Token.Placement
import GmlLayout.Proofs.Grammar.Grading
import GmlLayout.Proofs.Grammar.Refusal
import GmlLayout.Proofs.Layout.ExemptionBalance
import GmlLayout.Proofs.Grammar.LineBreaks
import GmlLayout.Proofs.Layout.PageEnd
import GmlLayout.Proofs.Diagnostic.Caret
import GmlLayout.Proofs.Tree.Balanced
import GmlLayout.Proofs.Layout.Level
import GmlLayout.Proofs.Layout.LevelExpressions
import GmlLayout.Proofs.Layout.LevelStatements
import GmlLayout.Proofs.Layout.IndentationBalance
import GmlLayout.Proofs.Layout.ContextStatements
import GmlLayout.Proofs.Grammar.Pauses
import GmlLayout.Proofs.Settings.Resolution
import GmlLayout.Proofs.Tree.FaithfulProgram
import GmlLayout.Proofs.Layout.ClosedRemarks
import GmlLayout.Proofs.Layout.Settling
