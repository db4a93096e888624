import FormulaCalculator.CalculationError
import FormulaCalculator.Number.Literal
import FormulaCalculator.Operator
import FormulaCalculator.Text.Class

/-!
# The keys of a keypad

A keypad gives one term for each key. Terms of digits and points that follow
each other make one number; every other term is a token of its own. The keys
`1`, `.`, `5`, `+`, `2` give the number 1.5, a sum sign and the number 2.
-/

set_option autoImplicit false

namespace FormulaCalculator.Keypad

/-- The names of the constants that a keypad has keys for. -/
def constantNames : List String := ["pi", "π", "e"]

/-- Whether a term is part of a number. -/
def isNumeric (term : String) : Bool :=
  !term.isEmpty && term.toList.all Text.isNumeric

/-- The number that a run of numeric terms makes. -/
def numberOf (run : String) : Except CalculationError Token :=
  if 1 < run.toList.count '.' then .error (.severalPoints run)
  else match Number.parse run with
    | .ok value => .ok (.number value)
    | .error _ => .error (.badToken run)

/-- The number that ends before a term; none if no numeric term stands there. -/
def pendingNumber (run : String) : Except CalculationError (List Token) :=
  if run.isEmpty then .ok [] else do return [← numberOf run]

/-- The token of a term that is not part of a number, after the token before. -/
def tokenOf (term : String) (previous : Option Token) : Except CalculationError Token :=
  if term = "(" then .ok .opening
  else if term = ")" then .ok .closing
  else if term = argumentName then .ok (.argument term)
  else if constantNames.contains term then .ok (.constant term)
  else match Token.ofSymbol? term previous with
    | some token => .ok token
    | none => .error (.badToken term)

/-- The tokens of terms, after a run of numeric terms and the token before it. -/
def tokensAfter (previous : Option Token) (run : String) :
    List String → Except CalculationError (List Token)
  | [] => pendingNumber run
  | term :: terms =>
    if isNumeric term then tokensAfter previous (run ++ term) terms
    else do
      let number ← pendingNumber run
      let token ← tokenOf term (number.getLast?.or previous)
      return number ++ token :: (← tokensAfter (some token) "" terms)

/-- The tokens that a list of terms makes. The leftmost fault is reported. -/
def tokens (terms : List String) : Except CalculationError (List Token) :=
  tokensAfter none "" terms

end FormulaCalculator.Keypad
