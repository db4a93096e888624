/-!
# Formulas

A formula is an expression in one variable with its operations in closed form.
The numbers it is over are left open: anything with the arithmetic operations
and the elementary functions will do. The calculator takes doubles, and what is
true of a formula as mathematics is said over the real numbers.
-/

set_option autoImplicit false

namespace FormulaCalculator

/-- The operations on two numbers. -/
inductive Combination where
  | sum
  | difference
  | product
  | quotient
  | power
deriving DecidableEq, Repr

/-- The functions that are called by a name. The logarithm is the natural one. -/
inductive ElementaryFunction where
  | sin
  | cos
  | tan
  | asin
  | acos
  | atan
  | log
  | sqrt
  | exp
  | abs
deriving DecidableEq, Repr

/-- Numbers that formulas can be over. -/
class Elementary (α : Type) where
  zero : α
  one : α
  two : α
  negate : α → α
  combine : Combination → α → α → α
  apply : ElementaryFunction → α → α

/-- Doubles. A value outside the domain of an operation is an infinity or no
number. -/
instance : Elementary Float where
  zero := 0
  one := 1
  two := 2
  negate x := -x
  combine
    | .sum, x, y => x + y
    | .difference, x, y => x - y
    | .product, x, y => x * y
    | .quotient, x, y => x / y
    | .power, x, y => Float.pow x y
  apply
    | .sin => Float.sin
    | .cos => Float.cos
    | .tan => Float.tan
    | .asin => Float.asin
    | .acos => Float.acos
    | .atan => Float.atan
    | .log => Float.log
    | .sqrt => Float.sqrt
    | .exp => Float.exp
    | .abs => Float.abs

/-- An expression in one variable over the numbers `α`. -/
inductive Formula (α : Type) where
  | constant (value : α)
  | argument
  | negate (f : Formula α)
  | combine (op : Combination) (f g : Formula α)
  | apply (function : ElementaryFunction) (f : Formula α)
deriving Repr, BEq

namespace Formula

/-- The value of a formula where the variable has the value `x`. -/
def evaluate {α : Type} [Elementary α] (x : α) : Formula α → α
  | .constant value => value
  | .argument => x
  | .negate f => Elementary.negate (f.evaluate x)
  | .combine op f g => Elementary.combine op (f.evaluate x) (g.evaluate x)
  | .apply function f => Elementary.apply function (f.evaluate x)

/-- Whether a formula does not mention the variable. -/
def isConstant {α : Type} : Formula α → Bool
  | .constant _ => true
  | .argument => false
  | .negate f => f.isConstant
  | .combine _ f g => f.isConstant && g.isConstant
  | .apply _ f => f.isConstant

end Formula

end FormulaCalculator
