import FormulaCalculator.Cursor

/-!
# Scanning the lexemes of a formula

A formula is made of numbers, names, operator signs and blanks. Each scan takes
the longest stretch of its kind, and leaves the cursor where it was if there is
none.
-/

set_option autoImplicit false

namespace FormulaCalculator.Scan

open FormulaCalculator.Text

/-- The signs of operators and parentheses that formulas are typed with. -/
def operatorSigns : List Char := ['+', '-', '*', '/', '%', '^', '(', ')']

/-- Passes blanks and lets go of them and of all before them. -/
def ignoreBlanks : Scan Bool := do
  let skipped ← skipWhile isBlankAscii
  ignore
  return skipped

/-- Passes an exponent: a mark, an optional sign and digits. A mark without
digits, such as the `e` in `2exp(x)`, is none. -/
def skipExponent : Scan Unit := do
  let mark ← checkpoint
  if (← acceptAny ['e', 'E']).isSome then
    let _ ← acceptAny ['+', '-']
    if !(← skipWhile Char.isDigit) then restore mark

/-- Passes a fraction, a point and digits, and the exponent after it. A point
without digits is none, and no exponent is looked for behind it. -/
def skipFraction : Scan Unit := do
  let mark ← checkpoint
  if (← accept '.').isSome then
    if ← skipWhile Char.isDigit then skipExponent else restore mark
  else
    skipExponent

/-- An unsigned number: digits, then a fraction and an exponent, both optional.
A sign in front of a number is an operator. -/
def scanNumber : Scan (Option String) := do
  if ← skipWhile Char.isDigit then
    skipFraction
    return some (← extractString)
  else
    return none

/-- The digits and points that follow a number which stopped at a point, with
the number in front: the whole of a bad literal such as `1.2.3`. -/
def scanNumberTail (head : String) : Scan (Option String) := do
  if (← peek) == some '.' then
    let _ ← skipWhile isNumeric
    return some (head ++ (← extractString))
  else
    return none

/-- The sign of an operator or a parenthesis. -/
def scanOperator : Scan (Option String) := do
  if (← acceptAny operatorSigns).isSome then
    return some (← extractString)
  else
    return none

/-- A name: a letter or underscore, then letters, digits and underscores. -/
def scanName : Scan (Option String) := do
  if (← acceptIf startsName).isSome then
    let _ ← skipWhile continuesName
    return some (← extractString)
  else
    return none

end FormulaCalculator.Scan
