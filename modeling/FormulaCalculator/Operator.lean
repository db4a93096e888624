import FormulaCalculator.Token

/-!
# Operators

Every operator has a symbol, a precedence, an associativity and an arity, and
one table holds them all. Precedences can be played with there: the unary minus
is as strong as the power and associates to the right, so `-2^2` is `-(2^2)`
while `2^-2` still finds its operand.
-/

set_option autoImplicit false

namespace FormulaCalculator

/-- Which of two operators of equal precedence goes first. For a unary operator
it is the side that the operator is written on: one that associates to the
right is written before its operand, one that associates to the left after it. -/
inductive Associativity where
  | left
  | right
deriving DecidableEq, Repr

/-- How many operands an operator takes. -/
inductive Arity where
  | unary
  | binary
deriving DecidableEq, Repr

/-- What is known about an operator symbol of one arity. -/
structure Operator where
  symbol : String
  precedence : Nat
  associativity : Associativity
  arity : Arity
deriving DecidableEq, Repr

namespace Operator

/-- Whether the operator is written after its operand. -/
def followsOperand (op : Operator) : Bool :=
  op.arity = .unary && op.associativity = .left

/-- Whether an operator waiting on the left takes its operand before the given
binary operator does. -/
def goesBefore (waiting op : Operator) : Bool :=
  op.precedence < waiting.precedence ||
    (waiting.precedence = op.precedence && op.associativity = .left)

/-- The operators. No symbol is listed twice with one arity. -/
def table : List Operator :=
  [⟨"+", 2, .left, .binary⟩,
   ⟨"-", 2, .left, .binary⟩,
   ⟨"*", 3, .left, .binary⟩,
   ⟨"×", 3, .left, .binary⟩,
   ⟨"/", 3, .left, .binary⟩,
   ⟨"÷", 3, .left, .binary⟩,
   ⟨"%", 3, .left, .binary⟩,
   ⟨"-", 5, .right, .unary⟩,
   ⟨"^", 5, .right, .binary⟩,
   ⟨"√", 6, .right, .unary⟩,
   ⟨"1/x", 6, .right, .unary⟩,
   ⟨"x²", 6, .left, .unary⟩,
   ⟨"sqrt", 7, .right, .unary⟩,
   ⟨"sin", 7, .right, .unary⟩,
   ⟨"cos", 7, .right, .unary⟩,
   ⟨"tan", 7, .right, .unary⟩,
   ⟨"asin", 7, .right, .unary⟩,
   ⟨"acos", 7, .right, .unary⟩,
   ⟨"atan", 7, .right, .unary⟩,
   ⟨"log", 7, .right, .unary⟩,
   ⟨"exp", 7, .right, .unary⟩,
   ⟨"abs", 7, .right, .unary⟩]

/-- The call of a function that the table does not know. It binds like the
functions that the table does know. -/
def unknownCall : Operator := ⟨"f()", 7, .right, .unary⟩

/-- The operator with a symbol and an arity. -/
def find? (symbol : String) (arity : Arity) : Option Operator :=
  table.find? fun op => op.symbol = symbol && op.arity = arity

/-- What is found is an operator of the table with the symbol and the arity. -/
theorem mem_of_find? {symbol : String} {arity : Arity} {op : Operator}
    (h : find? symbol arity = some op) :
    op ∈ table ∧ op.symbol = symbol ∧ op.arity = arity := by
  refine ⟨List.mem_of_find?_eq_some h, ?_⟩
  simpa using List.find?_some h

/-- Every operator of the table is found by its symbol and its arity. -/
theorem find?_of_mem : ∀ op ∈ table, find? op.symbol op.arity = some op := by
  decide

end Operator

namespace Token

/-- The operator that a token is; none for operands, parentheses and symbols
that the table does not know. -/
def operator? : Token → Option Operator
  | .binary symbol => Operator.find? symbol .binary
  | .unary symbol => Operator.find? symbol .unary
  | .call name => (Operator.find? name .unary).or (some .unknownCall)
  | _ => none

/-- A call is an operator of one operand, whatever its name. -/
theorem exists_operator?_call (name : String) :
    ∃ op, (Token.call name).operator? = some op ∧ op.arity = .unary := by
  cases hfind : Operator.find? name .unary with
  | none => exact ⟨.unknownCall, by simp [operator?, hfind], rfl⟩
  | some op => exact ⟨op, by simp [operator?, hfind], (Operator.mem_of_find? hfind).2.2⟩

/-- Whether a token is an operator written after its operand. -/
def followsOperand (token : Token) : Bool :=
  token.operator?.any Operator.followsOperand

/-- Whether a token closes an operand. An operator after it is binary or stands
behind its operand. -/
def closesOperand (token : Token) : Bool :=
  token.endsOperand || token.followsOperand

/-- The token of an operator symbol, after the token before it. A symbol of
both arities is unary where its side of an operand is. -/
def ofSymbol? (symbol : String) (previous : Option Token) : Option Token :=
  match Operator.find? symbol .unary, Operator.find? symbol .binary with
  | some op, some _ =>
    if previous.any closesOperand = op.followsOperand then some (.unary symbol)
    else some (.binary symbol)
  | some _, none => some (.unary symbol)
  | none, some _ => some (.binary symbol)
  | none, none => none

end Token

end FormulaCalculator
