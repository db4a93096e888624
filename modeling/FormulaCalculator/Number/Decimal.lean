/-!
# Decimal texts

Numbers written with decimal digits and a point, as lists of characters. How
many digits there are is up to the caller.
-/

set_option autoImplicit false

namespace FormulaCalculator.Number

/-- The decimal digits of a number. -/
def digits (n : Nat) : List Char := Nat.toDigits 10 n

/-- The number that decimal digits spell. -/
def ofDigits (digits : List Char) : Nat := Nat.ofDigitChars 10 digits 0

/-- The digits of a number spell it. -/
@[simp]
theorem ofDigits_digits (n : Nat) : ofDigits (digits n) = n := Nat.ofDigitChars_ten_toDigits

/-- The digits with zeros in front, so that there are at least `width`. -/
def padLeft (width : Nat) (text : List Char) : List Char :=
  List.replicate (width - text.length) '0' ++ text

/-- Zeros in front do not change the number. -/
@[simp]
theorem ofDigits_padLeft (width : Nat) (text : List Char) :
    ofDigits (padLeft width text) = ofDigits text := by
  unfold padLeft
  generalize width - text.length = count
  induction count with
  | zero => rfl
  | succ n ih =>
    rw [← ih, List.replicate_succ, List.cons_append, ofDigits, Nat.ofDigitChars_cons]
    rfl

/-- The text of `value / 10 ^ places`, with exactly `places` decimals and no
point when there are none. -/
def placePoint (value places : Nat) : List Char :=
  let text := padLeft (places + 1) (digits value)
  let whole := text.take (text.length - places)
  if places = 0 then whole else whole ++ '.' :: text.drop (text.length - places)

/-- The text of `value * 10 ^ exponent`, positional whatever the exponent. -/
def positional (value : Nat) (exponent : Int) : List Char :=
  if 0 ≤ exponent then digits (value * Nat.pow 10 exponent.toNat)
  else placePoint value (-exponent).toNat

/-- The text without the given character at its end. -/
def trimEnd (c : Char) (text : List Char) : List Char :=
  (text.reverse.dropWhile (· == c)).reverse

/-- Only characters at the end go. -/
theorem trimEnd_append_replicate (c : Char) (text : List Char) :
    ∃ n, text = trimEnd c text ++ List.replicate n c := by
  refine ⟨(text.reverse.takeWhile (· == c)).length, ?_⟩
  have hrun : text.reverse.takeWhile (· == c) =
      List.replicate (text.reverse.takeWhile (· == c)).length c := by
    rw [List.eq_replicate_iff]
    refine ⟨rfl, fun b hb => ?_⟩
    have := List.all_takeWhile (p := (· == c)) (l := text.reverse)
    rw [List.all_eq_true] at this
    simpa using this b hb
  have hsplit := List.takeWhile_append_dropWhile (p := (· == c)) (l := text.reverse)
  rw [hrun] at hsplit
  have := congrArg List.reverse hsplit
  simpa [trimEnd] using this.symm

/-- A decimal text without superfluous zeros after its point, and without the
point when nothing is left after it. A text without a point stays as it is. -/
def trimDecimals (text : List Char) : List Char :=
  if text.contains '.' then trimEnd '.' (trimEnd '0' text) else text

/-- The sign in front of a text. -/
def signed (negative : Bool) (text : List Char) : List Char :=
  if negative then '-' :: text else text

end FormulaCalculator.Number
