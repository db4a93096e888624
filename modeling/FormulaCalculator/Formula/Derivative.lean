import FormulaCalculator.Formula

/-!
# Derivatives of formulas

The derivative of a formula by its variable, by the rules of calculus. The
result is not simplified, so its form shows the rules that were used: the
derivative of `3 * x` is `(0 * x) + (3 * 1)`.
-/

set_option autoImplicit false

namespace FormulaCalculator.Formula

variable {α : Type} [Elementary α]

/-- The square of a formula. -/
def squared (f : Formula α) : Formula α := .combine .power f (.constant Elementary.two)

/-- The root of one minus the square of a formula. -/
def cofactor (f : Formula α) : Formula α :=
  .apply .sqrt (.combine .difference (.constant Elementary.one) f.squared)

/-- The derivative of `f ^ g` for a `g` with the constant value `c`, where `df`
is the derivative of `f`. -/
def constantPowerRule (c : α) (f df : Formula α) : Formula α :=
  let lowered := Elementary.combine .difference c Elementary.one
  .combine .product
    (.combine .product (.constant c) (.combine .power f (.constant lowered))) df

/-- The derivative of `f ^ g`, which is `exp (g * log f)`, where `df` and `dg`
are the derivatives of `f` and `g`. -/
def generalPowerRule (f g df dg : Formula α) : Formula α :=
  .combine .product (.combine .power f g)
    (.combine .sum (.combine .product dg (.apply .log f))
      (.combine .quotient (.combine .product g df) f))

/-- The derivative of `f op g`, where `df` and `dg` are the derivatives of `f`
and `g`. An exponent without the variable is taken by its value. -/
def combinationRule (op : Combination) (f g df dg : Formula α) : Formula α :=
  match op with
  | .sum => .combine .sum df dg
  | .difference => .combine .difference df dg
  | .product => .combine .sum (.combine .product df g) (.combine .product f dg)
  | .quotient =>
    .combine .quotient
      (.combine .difference (.combine .product df g) (.combine .product f dg)) g.squared
  | .power =>
    if g.isConstant then constantPowerRule (g.evaluate Elementary.zero) f df
    else generalPowerRule f g df dg

/-- The derivative of a function of `f`, where `df` is the derivative of `f`.
The derivative of the magnitude is the sign, written as `f / abs f`. -/
def chainRule (function : ElementaryFunction) (f df : Formula α) : Formula α :=
  match function with
  | .sin => .combine .product (.apply .cos f) df
  | .cos => .combine .product (.negate (.apply .sin f)) df
  | .tan => .combine .quotient df (squared (.apply .cos f))
  | .asin => .combine .quotient df f.cofactor
  | .acos => .negate (.combine .quotient df f.cofactor)
  | .atan => .combine .quotient df (.combine .sum (.constant Elementary.one) f.squared)
  | .log => .combine .quotient df f
  | .sqrt =>
    .combine .quotient df (.combine .product (.constant Elementary.two) (.apply .sqrt f))
  | .exp => .combine .product (.apply .exp f) df
  | .abs => .combine .product df (.combine .quotient f (.apply .abs f))

/-- The derivative of a formula. -/
def derivative : Formula α → Formula α
  | .constant _ => .constant Elementary.zero
  | .argument => .constant Elementary.one
  | .negate f => .negate f.derivative
  | .combine op f g => combinationRule op f g f.derivative g.derivative
  | .apply function f => chainRule function f f.derivative

/-- The derivative of a formula taken a number of times. -/
def nthDerivative : Nat → Formula α → Formula α
  | 0, f => f
  | n + 1, f => nthDerivative n f.derivative

end FormulaCalculator.Formula
