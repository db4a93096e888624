import FormulaCalculator.Keypad
import FormulaCalculator.Number.Display
import FormulaCalculator.Postfix.Evaluate

/-!
# The calculator

A calculator has values for names and a display. It takes the keys of a keypad
or a typed expression, brings it into postfix order and evaluates it.
-/

set_option autoImplicit false

namespace FormulaCalculator

/-- A calculator: its named values and its display. -/
structure Calculator where
  bindings : Bindings := .constants
  display : Number.Display := {}

namespace Calculator

/-- The value of the expression on the keys. -/
def calculate (calculator : Calculator) (terms : List String) :
    Except CalculationError Float := do
  let expression ← Postfix.ofTokens (← Keypad.tokens terms)
  expression.evaluate calculator.bindings

/-- The value of the expression on the keys as the display shows it. -/
def calculateText (calculator : Calculator) (terms : List String) :
    Except CalculationError String :=
  (calculator.calculate terms).map calculator.display.format

/-- The value of a typed expression. -/
def evaluate (calculator : Calculator) (text : String) : Except CalculationError Float := do
  (← Postfix.ofText text).evaluate calculator.bindings

/-- The value of a typed expression with one more name bound. -/
def evaluateAt (calculator : Calculator) (text name : String) (value : Float) :
    Except CalculationError Float := do
  (← Postfix.ofText text).evaluateAt calculator.bindings name value

end Calculator

end FormulaCalculator
