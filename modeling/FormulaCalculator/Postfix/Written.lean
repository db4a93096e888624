import FormulaCalculator.Postfix.OperatorTree
import FormulaCalculator.Text.Alphabetic

/-!
# Postfix expressions written in the usual order

A postfix expression that is a tree is written in the usual order with the
fewest parentheses that precedences call for. The signs of the keypad for
product and quotient are written as they are typed, and an operator whose name
is made of letters is written as a call. An expression that is no tree is
written as its symbols.
-/

set_option autoImplicit false

namespace FormulaCalculator

/-- A written expression with the precedence of its outermost operator; an
operand has none and never needs parentheses. -/
structure Written where
  text : String
  precedence : Option Nat
deriving DecidableEq, Repr

namespace Written

/-- The text between parentheses. -/
def enclosed (written : Written) : String := "(" ++ written.text ++ ")"

/-- Whether the outermost operator binds less than a precedence. -/
def bindsBelow (written : Written) (precedence : Nat) : Bool :=
  written.precedence.any (· < precedence)

/-- The text as an operand of an operator: in parentheses if it binds less than
the operator, and on the side to which the operator does not associate also if
it binds as much. -/
def asOperand (written : Written) (precedence : Nat) (farSide : Bool) : String :=
  if written.bindsBelow precedence || (farSide && written.precedence = some precedence) then
    written.enclosed
  else written.text

end Written

namespace OperatorTree

/-- The sign an operator is written with. The signs that only a keypad has are
replaced by those that are typed. -/
def typedSign (symbol : String) : String :=
  match symbol with
  | "×" => "*"
  | "÷" => "/"
  | symbol => symbol

/-- Whether an operator is written as a call: it has no character that is not a
letter. -/
def isNamed (sign : String) : Bool := sign.toList.all Text.isAlphabetic

/-- A unary operator with its operand: as a call, behind it or in front of it. -/
def writeUnary (op : Operator) (sign : String) (operand : Written) : Written :=
  let text :=
    if isNamed sign then sign ++ operand.enclosed
    else if op.followsOperand then operand.asOperand op.precedence false ++ sign
    else sign ++ operand.asOperand op.precedence false
  ⟨text, some op.precedence⟩

/-- A binary operator between its operands. On the side to which it does not
associate, an operand that binds as much is put in parentheses too. -/
def writeBinary (op : Operator) (sign : String) (left right : Written) : Written :=
  let text := left.asOperand op.precedence (op.associativity ≠ .left) ++ " " ++ sign ++ " " ++
    right.asOperand op.precedence (op.associativity ≠ .right)
  ⟨text, some op.precedence⟩

/-- The tree in the usual order. -/
def written : OperatorTree → Written
  | .leaf token => ⟨token.symbol, none⟩
  | .unary op token operand => writeUnary op (typedSign token.symbol) operand.written
  | .binary op token left right =>
    writeBinary op (typedSign token.symbol) left.written right.written

end OperatorTree

namespace Postfix

/-- The expression in the usual order, or its symbols with spaces between them
if it is no tree. -/
def toText (expression : Postfix) : String :=
  match expression.tree? with
  | some tree => tree.written.text
  | none => " ".intercalate expression.symbols

end Postfix

end FormulaCalculator
