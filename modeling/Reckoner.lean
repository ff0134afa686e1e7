import Reckoner.Except
import Reckoner.Integer
import Reckoner.Decimal.Basic
import Reckoner.Decimal.Arithmetic
import Reckoner.Decimal.Text
import Reckoner.Binary64
import Reckoner.Text.CharClass
import Reckoner.Text.Quoted
import Reckoner.Text.Basic
import Reckoner.Value
import Reckoner.Value.Conversion
import Reckoner.Operator
import Reckoner.Operation
import Reckoner.Token
import Reckoner.Token.Scan
import Reckoner.Expr
import Reckoner.Expr.Parse
import Reckoner.Evaluation
import Reckoner.Json.Basic
import Reckoner.Json.Magnitude
import Reckoner.Json.Write
import Reckoner.Json.Read
import Reckoner.Settings
import Reckoner.Stored.Fields
import Reckoner.Stored.Value
import Reckoner.Stored.Settings
import Reckoner.Stored.Expr
import Reckoner.Calculator
import Reckoner.Bindings
import Reckoner.Session
import Reckoner.Transcript
import Reckoner.Command
import Reckoner.Command.Arguments
import Reckoner.Main
import Reckoner.Proofs.Canonical
import Reckoner.Proofs.Grammar
import Reckoner.Proofs.ParseYield
import Reckoner.Proofs.ParseSpelling
import Reckoner.Proofs.CharClass
import Reckoner.Proofs.Lexeme
import Reckoner.Proofs.Tiling
import Reckoner.Proofs.Munch
import Reckoner.Proofs.Decomposition
import Reckoner.Proofs.ParseGrammar
import Reckoner.Proofs.PostOrder
import Reckoner.Proofs.Reach
import Reckoner.Proofs.DepthLimit
import Reckoner.Proofs.Demand
import Reckoner.Proofs.ViablePrefix
import Reckoner.Proofs.EarliestError
import Reckoner.Proofs.ExactLimits
import Reckoner.Proofs.StaticKind
import Reckoner.Proofs.ShortCircuit
import Reckoner.Proofs.ExactInteger
import Reckoner.Proofs.DecimalText
import Reckoner.Proofs.JsonText
import Reckoner.Proofs.StoredForm
import Reckoner.Proofs.Written
import Reckoner.Proofs.PrefixForm
import Reckoner.Proofs.InfixForm
import Reckoner.Proofs.Composition
import Reckoner.Proofs.Persistence
import Reckoner.Proofs.ByteOrder
import Reckoner.Proofs.LineReply
import Reckoner.Proofs.Substitution
import Reckoner.Proofs.SessionTranscript
import Reckoner.Proofs.Definitions
import Reckoner.Proofs.Spacing
import Reckoner.Proofs.Levels
import Reckoner.Proofs.TextLevels
import Reckoner.Proofs.Congruence
import Reckoner.Proofs.StoredMeaning
import Reckoner.Proofs.PrintedValue
import Reckoner.Proofs.ExactNumber
import Reckoner.Proofs.ExactConversion
import Reckoner.Proofs.Rounding
import Reckoner.Proofs.LongDivision
import Reckoner.Proofs.OperatorTable
import Reckoner.Proofs.Widening
import Reckoner.Proofs.NumberLiteral
import Reckoner.Proofs.Removal
import Reckoner.Proofs.EagerOperands
import Reckoner.Proofs.SameNumber
import Reckoner.Proofs.Descent
import Reckoner.Proofs.DescentOperand
import Reckoner.Proofs.DescentSafety
import Reckoner.Proofs.SettingsLayers
