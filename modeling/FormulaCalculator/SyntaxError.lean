/-!
# What can be wrong with a formula

The causes for which a typed formula has no syntax tree, each with the position
of the token that is to blame, and the words for them.
-/

set_option autoImplicit false

namespace FormulaCalculator

/-- What is wrong with a formula. -/
inductive SyntaxFault where
  | unexpectedToken (symbol : String)
  | missingOperand (symbol : String)
  | malformedNumber (literal : String)
  | parenthesisMismatch
  | emptyExpression
deriving DecidableEq, Repr

/-- What is said about a fault. -/
def SyntaxFault.message : SyntaxFault → String
  | .unexpectedToken symbol => s!"unexpected token `{symbol}`"
  | .missingOperand symbol => s!"missing operand for `{symbol}`"
  | .malformedNumber literal => s!"malformed number `{literal}`"
  | .parenthesisMismatch => "parenthesis mismatch"
  | .emptyExpression => "empty expression"

/-- A fault and the position of the first character of what is to blame. -/
structure SyntaxError where
  position : Nat
  fault : SyntaxFault
deriving DecidableEq, Repr

/-- What is said about an error. -/
def SyntaxError.message (error : SyntaxError) : String :=
  s!"parse error (c. {error.position}): " ++ error.fault.message

end FormulaCalculator
