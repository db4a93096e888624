import FormulaCalculator.Number.Shortest

/-!
# Tokens

The smallest parts of an expression, whether they come from a typed formula or
from the keys of a keypad.
-/

set_option autoImplicit false

namespace FormulaCalculator

/-- The name of the variable that formulas are written in. -/
def argumentName : String := "x"

/-- A part of an expression. -/
inductive Token where
  /-- A text that has no place in an expression. -/
  | stray (lexeme : String)
  | number (value : Float)
  /-- The variable. -/
  | argument (name : String)
  | constant (name : String)
  /-- The name of a function that is called. -/
  | call (name : String)
  | unary (symbol : String)
  | binary (symbol : String)
  | opening
  | closing
deriving DecidableEq, Repr

namespace Token

/-- The text of a token. A number has its shortest text. -/
def symbol : Token → String
  | .number value => Number.toText value
  | .stray text | .argument text | .constant text | .call text
  | .unary text | .binary text => text
  | .opening => "("
  | .closing => ")"

/-- Whether a token can be the last one of an operand, so that a minus after it
subtracts. -/
def endsOperand : Token → Bool
  | .number _ | .argument _ | .constant _ | .closing => true
  | _ => false

end Token

/-- A token and the position of its first character in the text. -/
structure Located where
  position : Nat
  token : Token
deriving DecidableEq, Repr

end FormulaCalculator
