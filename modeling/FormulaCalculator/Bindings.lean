import Std.Data.TreeMap

/-!
# Named values

The names that an expression can mention and their values. The names of the
constants are bound from the start, and can be bound anew or let go of.
-/

set_option autoImplicit false

namespace FormulaCalculator

/-- The ratio of a circle's circumference to its diameter, as a double. -/
def piValue : Float := 3.141592653589793

/-- The base of the natural logarithm, as a double. -/
def eulerValue : Float := 2.718281828459045

/-- Values by name, in the order of the names. -/
structure Bindings where
  values : Std.TreeMap String Float

namespace Bindings

/-- The constants. -/
def constants : Bindings :=
  ⟨Std.TreeMap.ofList [("pi", piValue), ("π", piValue), ("e", eulerValue)]⟩

/-- The value of a name. -/
def get? (bindings : Bindings) (name : String) : Option Float :=
  bindings.values[name]?

/-- Binds a name, anew if it was bound. -/
def bind (bindings : Bindings) (name : String) (value : Float) : Bindings :=
  ⟨bindings.values.insert name value⟩

/-- Lets go of a name. -/
def unbind (bindings : Bindings) (name : String) : Bindings :=
  ⟨bindings.values.erase name⟩

/-- The names with their values, sorted by the names. -/
def toList (bindings : Bindings) : List (String × Float) :=
  bindings.values.toList

end Bindings

end FormulaCalculator
