import FormulaCalculator.Bindings
import FormulaCalculator.Operator.Arithmetic
import FormulaCalculator.Postfix

/-!
# The value of a postfix expression

An expression in postfix order is evaluated from left to right on a stack of
values: an operand is pushed, an operator takes its operands from the stack and
pushes its result. The expression has a value if exactly one is left.
-/

set_option autoImplicit false

namespace FormulaCalculator

namespace Bindings

/-- The value of a name that an expression mentions. -/
def valueOf (bindings : Bindings) (name : String) : Except CalculationError Float :=
  match bindings.get? name with
  | some value => .ok value
  | none => .error (.unknownName name)

end Bindings

namespace Postfix

/-- The stack after a binary operator. The right operand is on top. -/
def pushBinary (symbol : String) : List Float → Except CalculationError (List Float)
  | right :: left :: values =>
    match Operator.applyBinary? symbol left right with
    | some value => .ok (value :: values)
    | none => .error (.badToken symbol)
  | _ => .error (.missingOperands symbol)

/-- The stack after a unary operator or a call. -/
def pushUnary (symbol : String) : List Float → Except CalculationError (List Float)
  | operand :: values =>
    match Operator.applyUnary? symbol operand with
    | some value => .ok (value :: values)
    | none => .error (.badToken symbol)
  | [] => .error (.missingOperands symbol)

/-- The stack of values after a token. -/
def push (bindings : Bindings) (values : List Float) :
    Token → Except CalculationError (List Float)
  | .number value => .ok (value :: values)
  | .argument name | .constant name => do return (← bindings.valueOf name) :: values
  | .binary symbol => pushBinary symbol values
  | .unary symbol | .call symbol => pushUnary symbol values
  | token => .error (.badToken token.symbol)

/-- The value of an expression, the one that is left at the end. -/
def evaluate (expression : Postfix) (bindings : Bindings) : Except CalculationError Float := do
  match ← expression.tokens.foldlM (push bindings) [] with
  | [value] => return value
  | values => throw (.leftoverValues values.length)

/-- The value of an expression with one more name bound. -/
def evaluateAt (expression : Postfix) (bindings : Bindings) (name : String) (value : Float) :
    Except CalculationError Float :=
  expression.evaluate (bindings.bind name value)

end Postfix

end FormulaCalculator
