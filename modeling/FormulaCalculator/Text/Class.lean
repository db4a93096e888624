/-!
# Classes of characters

The classes that formulas are read by. They hold ASCII characters only: a
formula is written in ASCII, and every other character is foreign to it.
-/

set_option autoImplicit false

namespace FormulaCalculator.Text

/-- The blanks between the tokens of a formula: space, tabulator, line feed,
form feed and carriage return, but not the vertical tabulator. -/
def isBlankAscii (c : Char) : Bool :=
  c == ' ' || c == '\t' || c == '\n' || c == '\x0c' || c == '\r'

/-- The printing characters of ASCII that are neither letters nor digits. -/
def isPunctuationAscii (c : Char) : Bool :=
  '!' ≤ c && c ≤ '~' && !c.isAlphanum

/-- A decimal digit or a decimal point. -/
def isNumeric (c : Char) : Bool := c.isDigit || c == '.'

/-- A character that may start a name. -/
def startsName (c : Char) : Bool := c.isAlpha || c == '_'

/-- A character that may go on with a name. -/
def continuesName (c : Char) : Bool := c.isAlphanum || c == '_'

end FormulaCalculator.Text
