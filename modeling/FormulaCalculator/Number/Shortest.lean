import FormulaCalculator.Number.Binary
import FormulaCalculator.Number.Decimal

/-!
# The shortest text of a double

A double is written with the fewest decimal digits that still read back to it,
and of those texts with the one nearest to it. Notation is always positional,
a whole number has no point, and zero keeps its sign.

The reals that read as `m * 2 ^ e` form an interval around it that reaches half
way to either neighbour; its ends belong to it exactly when `m` is even. On
ever finer decimal grids the two neighbours of the value are tried, and the
first grid with a neighbour inside the interval wins. Seventeen digits always
suffice. Since a coarser grid would have won, the digits never end in a zero.
-/

set_option autoImplicit false

namespace FormulaCalculator.Number

/-- The reals that read as one double, as quotients over `den`: from `low` to
`high` around `value`, the ends counting only if `closed`. -/
structure RoundingInterval where
  low : Nat
  value : Nat
  high : Nat
  den : Nat
  closed : Bool

namespace RoundingInterval

/-- The interval of `mantissa * 2 ^ exponent`. Below a power of two the next
double is only half as far away, except at the least exponent. -/
def of (mantissa : Nat) (exponent : Int) : RoundingInterval :=
  let (unit, den) := scaleBy 2 1 1 (exponent - 2)
  let below := if mantissa = Nat.pow 2 (mantissaBits - 1) ∧ leastExponent < exponent then 1 else 2
  { low := (4 * mantissa - below) * unit
    value := 4 * mantissa * unit
    high := (4 * mantissa + 2) * unit
    den := den
    closed := mantissa % 2 = 0 }

/-- Whether `digit * 10 ^ exponent` reads as the double. -/
def contains (i : RoundingInterval) (digit : Nat) (exponent : Int) : Bool :=
  let (num, den) := scaleBy 10 digit 1 exponent
  let (candidate, low, high) := (num * i.den, i.low * den, i.high * den)
  if i.closed then low ≤ candidate && candidate ≤ high
  else low < candidate && candidate < high

/-- The best of the two neighbours of the value on the grid of multiples of
`10 ^ exponent`, if one of them is in the interval. Of two the nearer is taken,
and the upper one when they are equally near. -/
def onGrid? (i : RoundingInterval) (exponent : Int) : Option Nat :=
  let (num, den) := scaleBy 10 i.value i.den (-exponent)
  let lower := num / den
  match i.contains lower exponent, i.contains (lower + 1) exponent with
  | true, true => some (roundQuotient .up num den)
  | true, false => some lower
  | false, true => some (lower + 1)
  | false, false => none

/-- The first grid that has a neighbour in the interval. The first one tried has
the power of ten above the value and none else near it, the next one has the
values of a single digit, and so on to seventeen digits. -/
def shortest? (i : RoundingInterval) : Option (Nat × Int) :=
  let above := decimalExponent i.value i.den + 1
  (List.range 18).findSome? fun (n : Nat) =>
    (i.onGrid? (above - n)).map fun digit => (digit, above - n)

end RoundingInterval

/-- The shortest text of a positive magnitude; the exact value stands in where
no short text is found. -/
def shortestMagnitude (mantissa : Nat) (exponent : Int) : List Char :=
  match (RoundingInterval.of mantissa exponent).shortest? with
  | some (digit, power) => positional digit power
  | none =>
    if 0 ≤ exponent then digits (mantissa * Nat.pow 2 exponent.toNat)
    else placePoint (mantissa * Nat.pow 5 (-exponent).toNat) (-exponent).toNat

/-- The text of a double: the shortest that reads back. -/
def shortestText (x : Float) : List Char :=
  match Binary.ofFloat x with
  | .notANumber => ['N', 'a', 'N']
  | .infinite negative => signed negative ['i', 'n', 'f']
  | .finite negative m e =>
    signed negative (if m = 0 then ['0'] else shortestMagnitude m e)

/-- The shortest text of a double as a string. -/
def toText (x : Float) : String := String.ofList (shortestText x)

end FormulaCalculator.Number
