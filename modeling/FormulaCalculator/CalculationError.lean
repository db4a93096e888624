/-!
# What can go wrong in a calculation

The causes for which an expression has no value, and the words for them. Most
of them are errors of writing, which a calculator may show in one way.
-/

set_option autoImplicit false

namespace FormulaCalculator

/-- Why an expression has no value. -/
inductive CalculationError where
  /-- Digits and points that hold more than one point. -/
  | severalPoints (digits : String)
  | missingOperands (symbol : String)
  /-- A number of values other than one is left at the end. -/
  | leftoverValues (count : Nat)
  | badToken (text : String)
  | parenthesisMismatch
  | unknownName (name : String)
deriving DecidableEq, Repr

namespace CalculationError

/-- What is said about an error. -/
def message : CalculationError → String
  | .severalPoints digits =>
    s!"Syntax error: number `{digits}` has more than one decimal point"
  | .missingOperands symbol => s!"Syntax error: not enough operands for `{symbol}`"
  | .leftoverValues count => s!"Syntax error: expression leaves {count} values"
  | .badToken text => s!"Syntax error: bad token `{text}`"
  | .parenthesisMismatch => "Parenthesis mismatch"
  | .unknownName name => s!"Unknown variable `{name}`"

/-- Whether an error is one of writing. Unbalanced parentheses and unknown names
are told apart from these. -/
def isWriting : CalculationError → Bool
  | .severalPoints _ | .missingOperands _ | .leftoverValues _ | .badToken _ => true
  | .parenthesisMismatch | .unknownName _ => false

end CalculationError

end FormulaCalculator
