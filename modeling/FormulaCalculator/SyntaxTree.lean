import FormulaCalculator.Token

/-!
# Syntax trees

The structure of an expression as a tree over its tokens: operands are leaves,
an operator before its operand and a call have one child on the right, and an
operator between its operands has two. A node with nothing but a left child is
no part of any formula, but a tree can hold one.
-/

set_option autoImplicit false

namespace FormulaCalculator

/-- A tree over tokens. -/
inductive SyntaxTree where
  | leaf (token : Token)
  | unary (token : Token) (operand : SyntaxTree)
  | binary (token : Token) (left right : SyntaxTree)
  | dangling (token : Token) (left : SyntaxTree)
deriving DecidableEq, Repr

namespace SyntaxTree

/-- The token at the top of a tree. -/
def token : SyntaxTree → Token
  | .leaf token | .unary token _ | .binary token _ _ | .dangling token _ => token

/-- The tokens of a tree with every node behind its children. -/
def postorder : SyntaxTree → List Token
  | .leaf token => [token]
  | .unary token operand => operand.postorder ++ [token]
  | .binary token left right => left.postorder ++ right.postorder ++ [token]
  | .dangling token left => left.postorder ++ [token]

end SyntaxTree

end FormulaCalculator
