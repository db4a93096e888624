/-!
# Rounding exact quotients

Whatever is rounded in this library is an exact quotient of two natural
numbers, and it is rounded once, by `roundQuotient`. The two exponents locate a
positive quotient between powers of two and between powers of ten.
-/

set_option autoImplicit false

namespace FormulaCalculator.Number

/-- Where an exact half goes. -/
inductive Tie where
  | toEven
  | up
deriving DecidableEq, Repr

/-- The whole number nearest to `num / den`. -/
def roundQuotient (tie : Tie) (num den : Nat) : Nat :=
  let whole := num / den
  match compare (2 * (num % den)) den with
  | .lt => whole
  | .gt => whole + 1
  | .eq => match tie with
    | .toEven => whole + whole % 2
    | .up => whole + 1

/-- Rounding takes the whole part or the number after it. -/
theorem roundQuotient_eq_or (tie : Tie) (num den : Nat) :
    roundQuotient tie num den = num / den ∨ roundQuotient tie num den = num / den + 1 := by
  unfold roundQuotient
  dsimp only
  split
  · exact .inl rfl
  · exact .inr rfl
  · cases tie
    · dsimp only
      omega
    · exact .inr rfl

/-- A whole number is not changed by rounding. -/
theorem roundQuotient_mul_right (tie : Tie) (n : Nat) {den : Nat} (hden : 0 < den) :
    roundQuotient tie (n * den) den = n := by
  unfold roundQuotient
  simp only [Nat.mul_mod_left, Nat.mul_div_cancel _ hden, Nat.mul_zero]
  rw [Nat.compare_eq_lt.2 hden]

/-- The rounded number is at most a half above the quotient. -/
theorem roundQuotient_mul_le (tie : Tie) (num den : Nat) :
    2 * roundQuotient tie num den * den ≤ 2 * num + den := by
  have hnum := Nat.div_add_mod num den
  have hmul : num / den * den = den * (num / den) := Nat.mul_comm _ _
  unfold roundQuotient
  dsimp only
  split
  · rw [Nat.mul_assoc, hmul]
    omega
  · next h =>
    have hgt := Nat.compare_eq_gt.1 h
    rw [Nat.mul_assoc, Nat.add_mul, hmul]
    omega
  · next h =>
    have heq := Nat.compare_eq_eq.1 h
    have hup : 2 * (num / den + 1) * den ≤ 2 * num + den := by
      rw [Nat.mul_assoc, Nat.add_mul, hmul]
      omega
    cases tie
    · refine Nat.le_trans (Nat.mul_le_mul_right den (Nat.mul_le_mul_left 2 ?_)) hup
      dsimp only
      omega
    · exact hup

/-- The rounded number is at most a half below the quotient. -/
theorem le_roundQuotient_mul (tie : Tie) (num : Nat) {den : Nat} (hden : 0 < den) :
    2 * num ≤ (2 * roundQuotient tie num den + 1) * den := by
  have hnum := Nat.div_add_mod num den
  have hmod := Nat.mod_lt num hden
  have hmul : num / den * den = den * (num / den) := Nat.mul_comm _ _
  have hdown (h : 2 * (num % den) ≤ den) : 2 * num ≤ (2 * (num / den) + 1) * den := by
    rw [Nat.add_mul, Nat.mul_assoc, hmul]
    omega
  unfold roundQuotient
  dsimp only
  split
  · next h => exact hdown (Nat.le_of_lt (Nat.compare_eq_lt.1 h))
  · rw [Nat.add_mul, Nat.mul_assoc, Nat.add_mul, hmul]
    omega
  · next h =>
    refine Nat.le_trans (hdown (Nat.le_of_eq (Nat.compare_eq_eq.1 h)))
      (Nat.mul_le_mul_right den ?_)
    cases tie <;> dsimp only <;> omega

/-- The quotient `num / den` times a power of the base, as a quotient. -/
def scaleBy (base num den : Nat) (exponent : Int) : Nat × Nat :=
  (num * base.pow exponent.toNat, den * base.pow (-exponent).toNat)

/-- How many decimal digits a number has; zero has none. -/
def digitCount (n : Nat) : Nat := if n = 0 then 0 else (Nat.toDigits 10 n).length

/-- How many binary digits a number has; zero has none. -/
def bitCount (n : Nat) : Nat := if n = 0 then 0 else n.log2 + 1

/-- The exponent `k` with `10 ^ k ≤ num / den < 10 ^ (k + 1)`, for a positive
quotient. -/
def decimalExponent (num den : Nat) : Int :=
  if den ≤ num then (digitCount (num / den) : Int) - 1
  else -(digitCount ((den - 1) / num) : Int)

/-- The exponent `k` with `2 ^ k ≤ num / den < 2 ^ (k + 1)`, for a positive
quotient. -/
def binaryExponent (num den : Nat) : Int :=
  if den ≤ num then (bitCount (num / den) : Int) - 1
  else -(bitCount ((den - 1) / num) : Int)

end FormulaCalculator.Number
