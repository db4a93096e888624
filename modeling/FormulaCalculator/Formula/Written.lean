import FormulaCalculator.Formula.Names
import FormulaCalculator.Token

/-!
# Formulas as text

A formula is written with parentheses around every operation, such as
`((3 * x) + 5)`, so that its text shows its structure. A constant has the
shortest text of its value, a sign included.
-/

set_option autoImplicit false

namespace FormulaCalculator

namespace Formula

/-- The text of a formula. -/
def toText : Formula Float → String
  | .constant value => Number.toText value
  | .argument => argumentName
  | .negate f => "(-" ++ f.toText ++ ")"
  | .combine op f g => "(" ++ f.toText ++ " " ++ op.sign ++ " " ++ g.toText ++ ")"
  | .apply function f => function.name ++ "(" ++ f.toText ++ ")"

end Formula

end FormulaCalculator
