import FormulaCalculator.Postfix

/-!
# The tree of a postfix expression

A postfix expression whose operators all find their operands, and which leaves
one value, is a tree of operators over operands. Tokens that are no operators
are its leaves, whatever they are.
-/

set_option autoImplicit false

namespace FormulaCalculator

/-- A tree of operators, each kept with what the table says of it. -/
inductive OperatorTree where
  | leaf (token : Token)
  | unary (op : Operator) (token : Token) (operand : OperatorTree)
  | binary (op : Operator) (token : Token) (left right : OperatorTree)

namespace Postfix

/-- The stack of trees after a token, the last tree first; none if an operator
lacks operands. -/
def growTrees (trees : List OperatorTree) (token : Token) : Option (List OperatorTree) :=
  match token.operator? with
  | none => some (.leaf token :: trees)
  | some op =>
    match op.arity, trees with
    | .unary, operand :: trees => some (.unary op token operand :: trees)
    | .binary, right :: left :: trees => some (.binary op token left right :: trees)
    | _, _ => none

/-- The tree of an expression, if it has one and nothing else. -/
def tree? (expression : Postfix) : Option OperatorTree :=
  match expression.tokens.foldlM growTrees [] with
  | some [tree] => some tree
  | _ => none

end Postfix

end FormulaCalculator
