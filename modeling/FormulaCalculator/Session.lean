import FormulaCalculator.Calculator
import FormulaCalculator.Command
import FormulaCalculator.Formula.Derivative
import FormulaCalculator.Formula.OfTree
import FormulaCalculator.Formula.Written
import FormulaCalculator.Text.Quoted

/-!
# Answering command lines

A line is answered by a text, or by an error. An error can have a cause, which
is told after it: in the same line where the session goes on, and in a paragraph
of its own where the program ends with it.
-/

set_option autoImplicit false

namespace FormulaCalculator

/-- Why a line has no answer. -/
inductive SessionError where
  | calculation (error : CalculationError)
  | formula (error : FormulaError)
  /-- The point to evaluate at is no number. -/
  | badPoint (point : String) (cause : Number.LiteralError)
  | nothingToEvaluate
deriving DecidableEq, Repr

namespace SessionError

/-- What is said about an error. -/
def message : SessionError → String
  | .calculation error => error.message
  | .formula error => error.message
  | .badPoint point _ => "bad value for x: " ++ Text.quote point
  | .nothingToEvaluate => "nothing to evaluate"

/-- What is said about the cause of an error, if it has one. -/
def cause? : SessionError → Option String
  | .badPoint _ cause => some cause.message
  | _ => none

/-- The error and its cause in one line. -/
def chain (error : SessionError) : String :=
  match error.cause? with
  | none => error.message
  | some cause => error.message ++ ": " ++ cause

/-- The error and its cause as they are reported when the program fails. -/
def report (error : SessionError) : String :=
  match error.cause? with
  | none => "Error: " ++ error.message ++ "\n"
  | some cause => "Error: " ++ error.message ++ "\n\nCaused by:\n    " ++ cause ++ "\n"

end SessionError

namespace Calculator

/-- The formula of a text, for a session. -/
def formulaOf (text : String) : Except SessionError (Formula Float) :=
  (Formula.ofText text).mapError .formula

/-- The value of the formula of a text, as the display shows it. -/
def formulaText (calculator : Calculator) (text : String) (x : Float) :
    Except SessionError String := do
  let f ← formulaOf text
  return calculator.display.format (f.evaluate x)

/-- The answer to a command. Of a point and a formula that are both wrong, the
point is reported. -/
def run (calculator : Calculator) : Command → Except SessionError String
  | .keys terms => (calculator.calculateText terms).mapError .calculation
  | .derive text => do return (← formulaOf text).derivative.toText
  | .evaluateAt text point =>
    match Number.parse point with
    | .error cause => .error (.badPoint point cause)
    | .ok x => calculator.formulaText text x
  | .evaluate text =>
    if text.isEmpty then .error .nothingToEvaluate else calculator.formulaText text 0

/-- The answer to a line. -/
def answer (calculator : Calculator) (line : String) : Except SessionError String :=
  calculator.run (.parse line)

end Calculator

end FormulaCalculator
