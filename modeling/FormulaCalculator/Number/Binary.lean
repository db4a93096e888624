import FormulaCalculator.Number.Rounding

/-!
# Doubles as exact numbers

A finite double is an integer times a power of two. This module reads that
integer and that power off a `Float` and puts them together again, so that
everything which has to be exact (reading and writing a number, its remainder)
is done on natural numbers.

`Binary.nearest` is the double nearest to a quotient, the even one of two that
are equally near; it is the only place where a number is rounded to a double.
`remainder` is exact: the remainder of two doubles needs no more bits than they
have, so rounding does not change it. `powerOfTen` is the power that repeated
squaring gives in double arithmetic, with every product rounded.
-/

set_option autoImplicit false

namespace FormulaCalculator.Number

/-- What a double stands for: not a number, an infinity, or the number
`mantissa * 2 ^ exponent` with a sign. A zero has mantissa and exponent zero and
keeps its sign. -/
inductive Binary where
  | notANumber
  | infinite (negative : Bool)
  | finite (negative : Bool) (mantissa : Nat) (exponent : Int)
deriving DecidableEq, Repr

/-- The bits of the mantissa of a double. -/
def mantissaBits : Nat := 53

/-- The least exponent of a double. Only there has a mantissa fewer bits. -/
def leastExponent : Int := -1074

/-- The greatest exponent of a double. -/
def greatestExponent : Int := 971

open Float.Model (UnpackedFloat)

namespace Binary

/-- Whether a sign is the minus sign. -/
def isMinus : UnpackedFloat.Sign → Bool
  | .positive => false
  | .negative => true

/-- The sign that is the minus sign or not. -/
def signOf (negative : Bool) : UnpackedFloat.Sign :=
  if negative then .negative else .positive

/-- What a double stands for. The mantissa is as large as it can be: it has all
its bits, or the exponent is the least one. -/
def ofFloat (x : Float) : Binary :=
  match x.toModel.unpack with
  | .notANumber => .notANumber
  | .infinity s => .infinite (isMinus s)
  | .zero s => .finite (isMinus s) 0 0
  | .finite s m e _ => .finite (isMinus s) m e

/-- The double that stands for a number whose mantissa is as large as it can
be. -/
def toFloat : Binary → Float
  | .notANumber => .ofModel (.pack .notANumber)
  | .infinite negative => .ofModel (.pack (.infinity (signOf negative)))
  | .finite negative m e =>
    if h : m = 0 then .ofModel (.pack (.zero (signOf negative)))
    else .ofModel (.pack (.finite (signOf negative) m e (Nat.pos_of_ne_zero h)))

/-- The number nearest to `num / den` among those that doubles stand for, of two
equally near the one with the even mantissa. What would need a greater exponent
than there is becomes an infinity. -/
def nearest (negative : Bool) (num den : Nat) : Binary :=
  let exponent := max leastExponent (binaryExponent num den - (mantissaBits - 1))
  let (scaledNum, scaledDen) := scaleBy 2 num den (-exponent)
  let rounded := roundQuotient .toEven scaledNum scaledDen
  let (mantissa, exponent) :=
    if rounded = Nat.pow 2 mantissaBits then (Nat.pow 2 (mantissaBits - 1), exponent + 1)
    else (rounded, exponent)
  if mantissa = 0 then .finite negative 0 0
  else if greatestExponent < exponent then .infinite negative
  else .finite negative mantissa exponent

end Binary

/-- The remainder of `x` by `y` after a quotient cut to a whole number; it has
the sign of `x`. There is none for an infinite `x` or a zero `y`, and an
infinite `y` leaves a finite `x` as it is. -/
def remainder (x y : Float) : Float :=
  match Binary.ofFloat x, Binary.ofFloat y with
  | .finite negative m e, .finite _ n f =>
    if n = 0 then Binary.toFloat .notANumber
    else
      let least := min e f
      let rest := (m * Nat.pow 2 (e - least).toNat) % (n * Nat.pow 2 (f - least).toNat)
      let (num, den) := scaleBy 2 rest 1 least
      (Binary.nearest negative num den).toFloat
  | .finite _ _ _, .infinite _ => x
  | _, _ => Binary.toFloat .notANumber

/-- `result * base ^ exponent` by repeated squaring, each product rounded. -/
def powerBySquaring (result base : Float) (exponent : Nat) : Float :=
  let result := if exponent % 2 = 1 then result * base else result
  if exponent < 2 then result
  else powerBySquaring result (base * base) (exponent / 2)
termination_by exponent

/-- Ten to the given exponent. A negative exponent takes the reciprocal of the
positive power. -/
def powerOfTen (exponent : Int) : Float :=
  let power := powerBySquaring 1 10 exponent.natAbs
  if exponent < 0 then 1 / power else power

end FormulaCalculator.Number
