import FormulaCalculator.Bindings
import FormulaCalculator.Formula.Names
import FormulaCalculator.SyntaxTree.Reading

/-!
# Formulas from syntax trees

A syntax tree is a formula if its operators are those of formulas, in their
places, and its names are known: two constants and ten functions. The remainder
and the signs that only a keypad has are no operators of formulas.
-/

set_option autoImplicit false

namespace FormulaCalculator

/-- Why a text or a tree is no formula. -/
inductive FormulaError where
  /-- The text has no syntax tree. -/
  | unreadable (error : SyntaxError)
  | unknownSymbol (symbol : String)
  | missingOperand (symbol : String)
  | malformedOperator (symbol : String)
deriving DecidableEq, Repr

/-- What is said about an error. -/
def FormulaError.message : FormulaError → String
  | .unreadable error => error.message
  | .unknownSymbol symbol => s!"unknown symbol `{symbol}`"
  | .missingOperand symbol => s!"missing operand for `{symbol}`"
  | .malformedOperator symbol => s!"malformed operator `{symbol}`"

namespace Formula

/-- The value of a constant by its name. -/
def namedConstant (name : String) : Except FormulaError (Formula Float) :=
  match name with
  | "pi" => .ok (.constant piValue)
  | "e" => .ok (.constant eulerValue)
  | name => .error (.unknownSymbol name)

/-- The formula of a node without children. -/
def ofLeaf : Token → Except FormulaError (Formula Float)
  | .number value => .ok (.constant value)
  | .argument _ => .ok .argument
  | .constant name => namedConstant name
  | .call name => .error (.missingOperand name)
  | .unary symbol | .binary symbol => .error (.malformedOperator symbol)
  | token => .error (.unknownSymbol token.symbol)

/-- The formula of a node with a single child on the right, given the formula of
the child. The name of a function is looked up before its argument is read. -/
def ofUnary (token : Token) (operand : Except FormulaError (Formula Float)) :
    Except FormulaError (Formula Float) :=
  match token with
  | .call name =>
    match ElementaryFunction.ofName? name with
    | some function => operand.map (.apply function)
    | none => .error (.unknownSymbol name)
  | .unary symbol | .binary symbol =>
    if symbol = "-" then operand.map .negate else .error (.malformedOperator symbol)
  | token => ofLeaf token

/-- The formula of a node with two children, given their formulas. The children
of an operator are read before its sign is looked up; a call looks at the child
on the right alone. -/
def ofBinary (token : Token) (left right : Except FormulaError (Formula Float)) :
    Except FormulaError (Formula Float) :=
  match token with
  | .unary symbol | .binary symbol => do
    let f ← left
    let g ← right
    match Combination.ofSign? symbol with
    | some op => return .combine op f g
    | none => throw (.malformedOperator symbol)
  | token => ofUnary token right

/-- The formula of a tree. -/
def ofTree : SyntaxTree → Except FormulaError (Formula Float)
  | .leaf token | .dangling token _ => ofLeaf token
  | .unary token operand => ofUnary token (ofTree operand)
  | .binary token left right => ofBinary token (ofTree left) (ofTree right)

/-- The formula of a text in `x`. -/
def ofText (text : String) : Except FormulaError (Formula Float) :=
  match SyntaxTree.ofText text with
  | .ok tree => ofTree tree
  | .error error => .error (.unreadable error)

end Formula

end FormulaCalculator
