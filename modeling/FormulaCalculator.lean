import FormulaCalculator.Main
import FormulaCalculator.Postfix.Written
import FormulaCalculator.Proofs.Grouping
import FormulaCalculator.Proofs.RealDerivative
import FormulaCalculator.Proofs.ShuntingYard
import FormulaCalculator.Proofs.FormulaGrammar
import FormulaCalculator.Proofs.ReadingCompleteness
import FormulaCalculator.Proofs.ReadingSoundness
import FormulaCalculator.Proofs.DecimalText
import FormulaCalculator.Proofs.FloatBits
import FormulaCalculator.Proofs.NearestDouble
import FormulaCalculator.Proofs.NumberRoundTrip
import FormulaCalculator.Proofs.PrintedExpression
import FormulaCalculator.Proofs.FormulaOrder
import FormulaCalculator.Proofs.FormulaValue
import FormulaCalculator.Proofs.WrittenFormula
import FormulaCalculator.Proofs.WrittenDerivative
import FormulaCalculator.Proofs.ParenthesisBalance
import FormulaCalculator.Proofs.KeyedCalls
import FormulaCalculator.Proofs.KeypadErrors
import FormulaCalculator.Proofs.OperandPlaces
import FormulaCalculator.Proofs.TypedKeys
import FormulaCalculator.Proofs.NumberLiteral
import FormulaCalculator.Proofs.TokenPieces
import FormulaCalculator.Proofs.OpenGroups
import FormulaCalculator.Proofs.ReadingErrors
import FormulaCalculator.Proofs.EarliestError
import FormulaCalculator.Proofs.FormulaErrors
import FormulaCalculator.Proofs.SpacedTokens
import FormulaCalculator.Proofs.TreeEvaluation
import FormulaCalculator.Proofs.DoubleArithmetic
import FormulaCalculator.Proofs.PowerDerivative
import FormulaCalculator.Proofs.KeyedTree
import FormulaCalculator.Proofs.SpelledTree
import FormulaCalculator.Proofs.ShownTree
import FormulaCalculator.Proofs.OutputOrder
import FormulaCalculator.Proofs.KeyItems
import FormulaCalculator.Proofs.DoubleValue
import FormulaCalculator.Proofs.RealRounding
import FormulaCalculator.Proofs.TrimmedDecimals
import FormulaCalculator.Proofs.DisplayNotation
import FormulaCalculator.Proofs.DisplayWidth
import FormulaCalculator.Proofs.CanonicalDecimal
import FormulaCalculator.Proofs.DisplayRounding
import FormulaCalculator.Proofs.CursorActions
import FormulaCalculator.Proofs.IndexedCursor
import FormulaCalculator.Proofs.Backtracking
import FormulaCalculator.Proofs.LexemeHistory
import FormulaCalculator.Proofs.BlankSeparation
import FormulaCalculator.Proofs.CommandLines
import FormulaCalculator.Proofs.ReadingInStep
