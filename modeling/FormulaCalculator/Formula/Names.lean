import FormulaCalculator.Formula

/-!
# Signs and names in formulas

The signs of the operations and the names of the functions, for writing and for
reading. Each sign and each name is read as what it was written for, and nothing
else is read.
-/

set_option autoImplicit false

namespace FormulaCalculator

namespace Combination

/-- The sign that an operation is written with. -/
def sign : Combination → String
  | .sum => "+"
  | .difference => "-"
  | .product => "*"
  | .quotient => "/"
  | .power => "^"

/-- The operation that a sign between two operands stands for. -/
def ofSign? (sign : String) : Option Combination :=
  match sign with
  | "+" => some .sum
  | "-" => some .difference
  | "*" => some .product
  | "/" => some .quotient
  | "^" => some .power
  | _ => none

/-- A sign stands for an operation exactly if it is its sign. -/
theorem ofSign?_eq_some_iff {text : String} {op : Combination} :
    ofSign? text = some op ↔ text = op.sign := by
  constructor
  · intro h
    unfold ofSign? at h
    split at h <;> cases h <;> rfl
  · rintro rfl
    cases op <;> rfl

end Combination

namespace ElementaryFunction

/-- The name that a function is called by. -/
def name : ElementaryFunction → String
  | .sin => "sin"
  | .cos => "cos"
  | .tan => "tan"
  | .asin => "asin"
  | .acos => "acos"
  | .atan => "atan"
  | .log => "log"
  | .sqrt => "sqrt"
  | .exp => "exp"
  | .abs => "abs"

/-- The function with a name. -/
def ofName? (name : String) : Option ElementaryFunction :=
  match name with
  | "sqrt" => some .sqrt
  | "sin" => some .sin
  | "cos" => some .cos
  | "tan" => some .tan
  | "asin" => some .asin
  | "acos" => some .acos
  | "atan" => some .atan
  | "log" => some .log
  | "exp" => some .exp
  | "abs" => some .abs
  | _ => none

/-- A name stands for a function exactly if it is its name. -/
theorem ofName?_eq_some_iff {text : String} {function : ElementaryFunction} :
    ofName? text = some function ↔ text = function.name := by
  constructor
  · intro h
    unfold ofName? at h
    split at h <;> cases h <;> rfl
  · rintro rfl
    cases function <;> rfl

end ElementaryFunction

end FormulaCalculator
