import FormulaCalculator.Number.Binary

/-!
# What operators compute

The functions on doubles that operator symbols stand for. Nothing is refused: a
value outside the domain of a function gives an infinity or no number.
-/

set_option autoImplicit false

namespace FormulaCalculator.Operator

/-- The function of two numbers that a symbol stands for. -/
def binaryFunction? (symbol : String) : Option (Float → Float → Float) :=
  match symbol with
  | "+" => some fun l r => l + r
  | "-" => some fun l r => l - r
  | "*" | "×" => some fun l r => l * r
  | "/" | "÷" => some fun l r => l / r
  | "%" => some Number.remainder
  | "^" => some Float.pow
  | _ => none

/-- The function of one number that a symbol or a name stands for. -/
def unaryFunction? (symbol : String) : Option (Float → Float) :=
  match symbol with
  | "-" => some fun o => -o
  | "√" | "sqrt" => some Float.sqrt
  | "1/x" => some fun o => 1 / o
  | "x²" => some fun o => o * o
  | "sin" => some Float.sin
  | "cos" => some Float.cos
  | "tan" => some Float.tan
  | "asin" => some Float.asin
  | "acos" => some Float.acos
  | "atan" => some Float.atan
  | "log" => some Float.log
  | "exp" => some Float.exp
  | "abs" => some Float.abs
  | _ => none

/-- The value of a binary operator, if the symbol is known. -/
def applyBinary? (symbol : String) (l r : Float) : Option Float :=
  (binaryFunction? symbol).map fun f => f l r

/-- The value of a unary operator or function, if the symbol is known. -/
def applyUnary? (symbol : String) (operand : Float) : Option Float :=
  (unaryFunction? symbol).map fun f => f operand

end FormulaCalculator.Operator
