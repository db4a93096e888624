import FormulaCalculator.Number.Binary
import FormulaCalculator.Number.Decimal

/-!
# Numbers on a calculator display

A display shows a number plainly, rounded to a number of decimals, as long as
its whole part fits and it is not too small; otherwise it shows a mantissa and
a power of ten. Digits are rounded once, from the exact value of the double,
and an exact half goes to the even neighbour. Zeros at the end of the decimals
are not shown, and a number that rounds to zero shows no sign.

The digits of the whole part are counted by a decimal logarithm in doubles. What
it gives is up to the platform, so it is a parameter of what follows from it.
-/

set_option autoImplicit false

namespace FormulaCalculator.Number

/-- The limits of a display. -/
structure Display where
  /-- More digits than these in the whole part call for a power of ten. -/
  wholeDigits : Nat := 10
  /-- Decimals that are kept. -/
  decimals : Nat := 10
  /-- A magnitude other than zero below ten to minus this threshold calls for a
  power of ten too. -/
  threshold : Int32 := 5
deriving DecidableEq, Repr

namespace Display

/-- The digits in the whole part of a magnitude. From one on they are counted
by the decimal logarithm. -/
def wholeDigitsOf (log10 : Float → Float) (magnitude : Float) : Nat :=
  if magnitude < 1 then 1 else (log10 magnitude).toUInt64.toNat + 1

/-- Whether a magnitude is shown with a power of ten. -/
def isScientific (display : Display) (log10 : Float → Float) (magnitude : Float) : Bool :=
  display.wholeDigits < wholeDigitsOf log10 magnitude ||
    (magnitude != 0 && magnitude < powerOfTen (-display.threshold).toInt)

/-- The quotient `num / den` rounded to the decimals kept. -/
def plain (display : Display) (negative : Bool) (num den : Nat) : List Char :=
  let rounded := roundQuotient .toEven (num * Nat.pow 10 display.decimals) den
  let text := trimDecimals (placePoint rounded display.decimals)
  signed (negative && text != ['0']) text

/-- The quotient `num / den` as a mantissa with one digit before the point, the
decimals kept after it, and a power of ten. -/
def scientific (display : Display) (negative : Bool) (num den : Nat) : List Char :=
  let exponent := if num = 0 then 0 else decimalExponent num den
  let (scaledNum, scaledDen) := scaleBy 10 num den (display.decimals - exponent)
  let rounded := roundQuotient .toEven scaledNum scaledDen
  let (mantissa, exponent) :=
    if rounded = Nat.pow 10 (display.decimals + 1) then (Nat.pow 10 display.decimals, exponent + 1)
    else (rounded, exponent)
  signed negative (trimDecimals (placePoint mantissa display.decimals)) ++
    'E' :: signed (exponent < 0) (digits exponent.natAbs)

/-- The text that the display shows for a double. -/
def textOf (display : Display) (log10 : Float → Float) (x : Float) : List Char :=
  match Binary.ofFloat x with
  | .notANumber => ['N', 'a', 'N']
  | .infinite negative => signed negative ['I', 'n', 'f', 'i', 'n', 'i', 't', 'y']
  | .finite negative m e =>
    let (num, den) := scaleBy 2 m 1 e
    if display.isScientific log10 x.abs then display.scientific negative num den
    else display.plain negative num den

/-- The text that the display shows for a double, as a string. -/
def format (display : Display) (x : Float) : String :=
  String.ofList (display.textOf Float.log10 x)

end Display

end FormulaCalculator.Number
