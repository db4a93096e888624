import FormulaCalculator.Operator
import FormulaCalculator.SyntaxError
import FormulaCalculator.SyntaxTree
import FormulaCalculator.Token.Lexer

/-!
# Reading a formula into its syntax tree

A formula is read from left to right with a stack of finished trees and a stack
of tokens that wait for their operands. At any time either an operand is due or
one has just ended, and this alone tells what the next token may be.

Where an operand has just ended, a variable, a constant, a call or an opening
parenthesis makes a product with it, as in `3x` or `(x+1)(x-1)`. A call is
complete when its group closes; a minus in front of a group keeps waiting, so
that `-(x)^2` is `-((x)^2)`. Every error names the token that is to blame.
-/

set_option autoImplicit false

namespace FormulaCalculator

/-- The state of reading a formula. -/
structure Reading where
  /-- The finished trees, the last one first. -/
  operands : List SyntaxTree
  /-- The tokens that wait, the last one first. -/
  waiting : List Located
  /-- Whether the next token has to start an operand. -/
  operandDue : Bool
deriving DecidableEq, Repr

namespace Reading

/-- Nothing is read and an operand is due. -/
def start : Reading := ⟨[], [], true⟩

/-- Whether a token is an operator between its operands. -/
def isBetween (token : Token) : Bool :=
  token.operator?.any (·.arity = .binary)

/-- The finished trees after a token has taken its operands from them. -/
def reduce (operator : Located) (operands : List SyntaxTree) :
    Except SyntaxError (List SyntaxTree) :=
  match operands, isBetween operator.token with
  | right :: left :: operands, true => .ok (.binary operator.token left right :: operands)
  | operand :: operands, false => .ok (.unary operator.token operand :: operands)
  | _, _ => .error ⟨operator.position, .missingOperand operator.token.symbol⟩

/-- What is wrong where an operand is due and does not come: before the closing
parenthesis at a position, or at the end of the text. The token that waits for
the operand is to blame; an empty group is blamed on the call it belongs to. -/
def operandMissing (waiting : List Located) (position : Nat) (closing : Bool) : SyntaxError :=
  match waiting with
  | ⟨_, .opening⟩ :: ⟨called, .call name⟩ :: _ => ⟨called, .missingOperand name⟩
  | ⟨opened, .opening⟩ :: _ =>
    if closing then ⟨position, .unexpectedToken Token.closing.symbol⟩
    else ⟨opened, .parenthesisMismatch⟩
  | ⟨waits, token⟩ :: _ => ⟨waits, .missingOperand token.symbol⟩
  | [] =>
    ⟨position, if closing then .unexpectedToken Token.closing.symbol else .emptyExpression⟩

/-- Reduces the operators that take their operands before a binary operator. -/
def reduceBefore (op : Operator) (operands : List SyntaxTree) :
    List Located → Except SyntaxError (List SyntaxTree × List Located)
  | [] => .ok (operands, [])
  | top :: waiting =>
    match top.token.operator? with
    | none => .ok (operands, top :: waiting)
    | some other =>
      if other.goesBefore op then do reduceBefore op (← reduce top operands) waiting
      else .ok (operands, top :: waiting)

/-- A binary operator, which ends the operand before it. -/
def binary (reading : Reading) (position : Nat) (token : Token) : Except SyntaxError Reading :=
  if reading.operandDue then .error ⟨position, .missingOperand token.symbol⟩
  else match token.operator? with
    | none => .error ⟨position, .unexpectedToken token.symbol⟩
    | some op => do
      let (operands, waiting) ← reduceBefore op reading.operands reading.waiting
      return ⟨operands, ⟨position, token⟩ :: waiting, true⟩

/-- The product that a token makes with an operand directly before it. -/
def impliedProduct (reading : Reading) (position : Nat) (token : Token) :
    Except SyntaxError Reading :=
  if reading.operandDue then .ok reading
  else match token with
    | .argument _ | .constant _ | .call _ | .opening => reading.binary position (.binary "*")
    | token => .error ⟨position, .unexpectedToken token.symbol⟩

/-- An operand without parts. -/
def operand (reading : Reading) (position : Nat) (token : Token) : Except SyntaxError Reading := do
  let reading ← reading.impliedProduct position token
  return ⟨.leaf token :: reading.operands, reading.waiting, false⟩

/-- A token that stands before an operand: a minus, a call or a parenthesis. -/
def leading (reading : Reading) (position : Nat) (token : Token) : Except SyntaxError Reading := do
  let reading ← reading.impliedProduct position token
  return ⟨reading.operands, ⟨position, token⟩ :: reading.waiting, true⟩

/-- Reduces everything down to the nearest opening parenthesis, which goes. -/
def reduceGroup (position : Nat) (operands : List SyntaxTree) :
    List Located → Except SyntaxError (List SyntaxTree × List Located)
  | [] => .error ⟨position, .parenthesisMismatch⟩
  | ⟨_, .opening⟩ :: waiting => .ok (operands, waiting)
  | top :: waiting => do reduceGroup position (← reduce top operands) waiting

/-- A closing parenthesis. A call that waits for its group is complete. -/
def closing (reading : Reading) (position : Nat) : Except SyntaxError Reading :=
  if reading.operandDue then .error (operandMissing reading.waiting position true)
  else do
    let (operands, waiting) ← reduceGroup position reading.operands reading.waiting
    match waiting with
    | ⟨called, .call name⟩ :: waiting =>
      return ⟨← reduce ⟨called, .call name⟩ operands, waiting, false⟩
    | waiting => return ⟨operands, waiting, false⟩

/-- What is wrong with a stray token. One that starts with a digit was meant to
be a number. -/
def strayFault (lexeme : String) : SyntaxFault :=
  match lexeme.toList with
  | c :: _ => if c.isDigit then .malformedNumber lexeme else .unexpectedToken lexeme
  | [] => .unexpectedToken lexeme

/-- Reads one token. -/
def step (reading : Reading) (next : Located) : Except SyntaxError Reading :=
  match next.token with
  | .number _ | .argument _ | .constant _ => reading.operand next.position next.token
  | .call _ | .opening => reading.leading next.position next.token
  | .unary symbol =>
    if reading.operandDue then reading.leading next.position next.token
    else .error ⟨next.position, .unexpectedToken symbol⟩
  | .binary _ => reading.binary next.position next.token
  | .closing => reading.closing next.position
  | .stray lexeme => .error ⟨next.position, strayFault lexeme⟩

/-- Reduces everything that waits at the end. A parenthesis among it was not
closed. -/
def reduceAll (operands : List SyntaxTree) : List Located → Except SyntaxError (List SyntaxTree)
  | [] => .ok operands
  | ⟨opened, .opening⟩ :: _ => .error ⟨opened, .parenthesisMismatch⟩
  | top :: waiting => do reduceAll (← reduce top operands) waiting

/-- The tree of all that was read, at the position of the end. -/
def finish (reading : Reading) (position : Nat) : Except SyntaxError SyntaxTree :=
  if reading.operandDue then
    if reading.waiting.isEmpty && reading.operands.isEmpty then .error ⟨0, .emptyExpression⟩
    else .error (operandMissing reading.waiting position false)
  else do
    match ← reduceAll reading.operands reading.waiting with
    | [tree] => return tree
    | _ => throw ⟨position, .emptyExpression⟩

end Reading

namespace SyntaxTree

/-- The syntax tree of a formula in `x`, such as `3x^2 + sin(2x)`. -/
def ofText (text : String) : Except SyntaxError SyntaxTree := do
  let reading ← (Lexed.ofText text).located.foldlM Reading.step .start
  reading.finish text.length

end SyntaxTree

end FormulaCalculator
