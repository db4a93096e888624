import FormulaCalculator.Number.Binary
import FormulaCalculator.Number.Decimal

/-!
# Reading a number

A literal is an optional sign followed by digits with an optional point and an
optional exponent, or by one of the names `inf`, `infinity` and `nan` in any
case. There is at least one digit beside the point, the exponent has at least
one, and nothing else stands in the text, blanks included. The value is the
double nearest to the number written.
-/

set_option autoImplicit false

namespace FormulaCalculator.Number

/-- Why a text is no number. -/
inductive LiteralError where
  | empty
  | malformed
deriving DecidableEq, Repr

/-- What is said about a text that is no number. -/
def LiteralError.message : LiteralError → String
  | .empty => "cannot parse float from empty string"
  | .malformed => "invalid float literal"

namespace Literal

/-- The double nearest to `mantissa * 10 ^ exponent`. All doubles are below the
three hundred and tenth power of ten and those other than zero are above the
power with exponent -330, so that larger powers of ten need not be formed. -/
def scaled (negative : Bool) (mantissa : Nat) (exponent : Int) : Binary :=
  if mantissa = 0 || exponent + digitCount mantissa < -330 then .finite negative 0 0
  else if 310 < exponent then .infinite negative
  else
    let (num, den) := scaleBy 10 mantissa 1 exponent
    .nearest negative num den

/-- The digits in front, and the rest of the text. -/
def spanDigits (text : List Char) : List Char × List Char :=
  (text.takeWhile Char.isDigit, text.dropWhile Char.isDigit)

/-- The exponent that a text is from its mark on: zero if the text is empty,
none if it is anything but a mark, an optional sign and digits. -/
def exponent? : List Char → Option Int
  | [] => some 0
  | mark :: text =>
    let (negative, text) := match text with
      | '-' :: text => (true, text)
      | '+' :: text => (false, text)
      | text => (false, text)
    match mark == 'e' || mark == 'E', spanDigits text with
    | true, (first :: more, []) =>
      let n : Int := ofDigits (first :: more)
      some (if negative then -n else n)
    | _, _ => none

/-- A decimal number behind its sign. -/
def decimal? (negative : Bool) (text : List Char) : Option Binary :=
  let (whole, rest) := spanDigits text
  let (fraction, rest) := match rest with
    | '.' :: rest => spanDigits rest
    | rest => ([], rest)
  if whole.isEmpty && fraction.isEmpty then none
  else (exponent? rest).map fun exponent =>
    scaled negative (ofDigits (whole ++ fraction)) (exponent - fraction.length)

/-- A value behind its sign that has a name instead of digits. -/
def named? (negative : Bool) (text : List Char) : Option Binary :=
  match text.map Char.toLower with
  | ['i', 'n', 'f'] | ['i', 'n', 'f', 'i', 'n', 'i', 't', 'y'] => some (.infinite negative)
  | ['n', 'a', 'n'] => some .notANumber
  | _ => none

/-- A number behind its sign. -/
def magnitude? (negative : Bool) (text : List Char) : Option Binary :=
  (named? negative text).or (decimal? negative text)

/-- The number that a text is, sign included. -/
def ofChars? : List Char → Option Binary
  | '-' :: text => magnitude? true text
  | '+' :: text => magnitude? false text
  | text => magnitude? false text

end Literal

/-- Reads a whole text as a double. -/
def parse (text : String) : Except LiteralError Float :=
  if text.isEmpty then .error .empty
  else match Literal.ofChars? text.toList with
    | some number => .ok number.toFloat
    | none => .error .malformed

end FormulaCalculator.Number
