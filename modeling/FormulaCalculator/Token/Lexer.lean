import FormulaCalculator.Cursor.Lexeme
import FormulaCalculator.Number.Literal
import FormulaCalculator.Token

/-!
# The tokens of a typed formula

A formula such as `3x + sin(x)^2` is cut into tokens from left to right. Every
text has tokens: what is no part of a formula becomes a stray token, a single
character or a whole bad literal.

A minus is unary where nothing that ends an operand stands before it. A name
is a call if a parenthesis follows directly, else the variable or a constant.
-/

set_option autoImplicit false

namespace FormulaCalculator

namespace Token

/-- The token of a sign, after the token before it. -/
def ofSign (sign : String) (previous : Option Token) : Token :=
  if sign = "(" then .opening
  else if sign = ")" then .closing
  else if sign = "-" && !previous.any endsOperand then .unary sign
  else .binary sign

/-- The token of a name, before the character after it. -/
def ofName (name : String) (following : Option Char) : Token :=
  if following = some '(' then .call name
  else if name = argumentName then .argument name
  else .constant name

/-- The token of a number. -/
def ofNumber (literal : String) : Token :=
  match Number.parse literal with
  | .ok value => .number value
  | .error _ => .stray literal

end Token

namespace Scan

/-- The token at the cursor, after the token before it; none at the end. -/
def token (previous : Option Token) : Scan (Option Token) := do
  match ← scanOperator with
  | some sign => return some (.ofSign sign previous)
  | none =>
    match ← scanName with
    | some name => return some (.ofName name (← peek))
    | none =>
      match ← scanNumber with
      | some literal =>
        match ← scanNumberTail literal with
        | some bad => return some (.stray bad)
        | none => return some (.ofNumber literal)
      | none =>
        match ← next with
        | some _ => return some (.stray (← extractString))
        | none => return none

/-- The next token behind blanks, with its position. -/
def located (previous : Option Token) : Scan (Option Located) := do
  let _ ← ignoreBlanks
  let position := (← get).start
  return (← token previous).map fun token => ⟨position, token⟩

/-- At most `count` tokens, and no more than there are. -/
def tokens : Nat → Option Token → Scan (List Located)
  | 0, _ => do
    let _ ← ignoreBlanks
    return []
  | count + 1, previous => do
    match ← located previous with
    | none => return []
    | some first => return first :: (← tokens count (some first.token))

end Scan

/-- A text cut into tokens, with the position where the last search for a token
ended. -/
structure Lexed where
  located : List Located
  finish : Nat
deriving DecidableEq, Repr

namespace Lexed

/-- Cuts characters into tokens. A token has at least one character, so there
are no more tokens than characters. -/
def ofChars (text : List Char) : Lexed :=
  let (located, cursor) := (Scan.tokens text.length none).run (Cursor.ofText text)
  ⟨located, cursor.start⟩

/-- Cuts a text into tokens. -/
def ofText (text : String) : Lexed := ofChars text.toList

/-- The tokens without their positions. -/
def tokens (lexed : Lexed) : List Token := lexed.located.map Located.token

end Lexed

end FormulaCalculator
