import FormulaCalculator.Formula.Derivative
import FormulaCalculator.Proofs.DoubleArithmetic

/-!
# Derivatives of powers in doubles

The derivative of a product is a sum of products, none of which is left out, even
where a factor is zero. So a derivative of a power is the number that calculus has
for it, as long as the powers with lower exponents are finite; a zero times an
infinity is no number, and one such term is enough for the sum to be none.

A whole exponent comes down to zero, and from there on the derivatives are zero
exactly as far as the powers with negative exponents stay finite. They do not at
zero.

Nothing is known here of the power function of doubles, so all of this is said of
any function in its place.
-/

set_option autoImplicit false

namespace FormulaCalculator

/-- Doubles with the function `power` for powers. -/
@[reducible] def Elementary.withPower (power : Float → Float → Float) : Elementary Float :=
  { (inferInstance : Elementary Float) with
    combine := fun op x y =>
      match op with
      | .power => power x y
      | op => Elementary.combine op x y }

/-- The doubles of formulas are those with their own power function. -/
theorem Elementary.withPower_pow :
    Elementary.withPower Float.pow = (inferInstance : Elementary Float) := by
  rw [withPower]
  congr 1
  funext op x y
  cases op <;> rfl

namespace Formula

open Number

section Definitions

variable (power : Float → Float → Float) (x : Float)

/-- The power of the variable with the exponent `c`. -/
def powerOfArgument (c : Float) : Formula Float := .combine .power .argument (.constant c)

/-- The value at `x` of the `n`-th derivative of a formula. -/
def derivativeValue (n : Nat) (f : Formula Float) : Float :=
  letI := Elementary.withPower power
  (nthDerivative n f).evaluate x

/-- What calculus has for the derivatives of `x ^ c`, multiplied from the right:
`c * ((c - 1) * (... * x ^ (c - n)))`. -/
def loweredPower : Nat → Float → Float
  | 0, c => power x c
  | n + 1, c => c * loweredPower n (c - 1)

end Definitions

/-- The derivatives of a product, from those of its factors: each step takes the
derivative of either factor and leaves the other one. -/
def leibniz (F G : Nat → Float) : Nat → Float
  | 0 => F 0 * G 0
  | n + 1 => leibniz (fun i => F (i + 1)) G n + leibniz F (fun i => G (i + 1)) n

/-- The double is `z`, but for the sign of a zero, if `p` holds, and no number
otherwise. -/
structure SameIf (p : Prop) (y z : Float) : Prop where
  same : p → Same y z
  isNaN : ¬p → y.isNaN = true

namespace SameIf

variable {p q : Prop} {w y z : Float}

/-- The condition can be replaced by one that is equivalent. -/
theorem congr (h : SameIf p y z) (hpq : p ↔ q) : SameIf q y z :=
  ⟨fun hq => h.same (hpq.mpr hq), fun hq => h.isNaN fun hp => hq (hpq.mp hp)⟩

/-- Where the condition holds, the same double as `z` will do. -/
theorem of_same (hp : p) (h : Same y z) : SameIf p y z :=
  ⟨fun _ => h, fun hnot => absurd hp hnot⟩

/-- A finite double is a number, so the condition holds. -/
theorem prop_of_isFinite (h : SameIf p y z) (hy : y.isFinite = true) : p := by
  by_contra hp
  exact not_isNaN_of_isFinite hy (h.isNaN hp)

/-- A sum with a zero that may be no number is a number if both summands are. -/
theorem add_zero (hy : SameIf p y z) (hw : SameIf q w 0) : SameIf (p ∧ q) (y + w) z where
  same := fun ⟨hp, hq⟩ => (Same.add_zero y ((hw.same hq).beq_zero zero_beq_zero)).trans (hy.same hp)
  isNaN hpq := by
    by_cases hp : p
    · rw [Double.add_comm]
      exact isNaN_add (hw.isNaN fun hq => hpq ⟨hp, hq⟩) y
    · exact isNaN_add (hy.isNaN hp) w

end SameIf

section Product

variable {Z : Nat → Float}

/-- It makes no difference which factor of a product comes first. -/
theorem leibniz_comm (F G : Nat → Float) (n : Nat) : leibniz F G n = leibniz G F n := by
  induction n generalizing F G with
  | zero => exact Double.mul_comm _ _
  | succ n ih =>
    rw [leibniz, leibniz, ih (fun i => F (i + 1)) G, ih F fun i => G (i + 1), Double.add_comm]

/-- A factor that stays zero makes every derivative zero, if the other factor and
its derivatives are finite. -/
theorem leibniz_zeros (F : Nat → Float) (hZ : ∀ i, (Z i == 0) = true) (n : Nat) :
    SameIf (∀ i ≤ n, (F i).isFinite = true) (leibniz F Z n) 0 := by
  induction n generalizing F Z with
  | zero =>
    constructor
    · intro hF
      exact .of_zeros (Double.mul_zero (hF 0 le_rfl) (hZ 0)) zero_beq_zero
    · intro hF
      have hnot : (F 0).isFinite = false := by
        rw [← Bool.not_eq_true]
        intro hF0
        refine hF fun i hi => ?_
        rw [Nat.le_zero.mp hi]
        exact hF0
      exact isNaN_mul_zero hnot (hZ 0)
  | succ n ih =>
    refine ((ih (fun i => F (i + 1)) hZ).add_zero (ih F fun i => hZ (i + 1))).congr ⟨?_, ?_⟩
    · rintro ⟨hlater, hearlier⟩ i hi
      cases i with
      | zero => exact hearlier 0 (Nat.zero_le n)
      | succ i => exact hlater i (by omega)
    · intro h
      exact ⟨fun i hi => h (i + 1) (by omega), fun i hi => h i (by omega)⟩

/-- A constant factor is kept, if what is multiplied with its zero derivatives is
finite. -/
theorem leibniz_constant (F C : Nat → Float) (hC : ∀ i, (C (i + 1) == 0) = true) (n : Nat) :
    SameIf (∀ i < n, (F i).isFinite = true) (leibniz F C n) (F n * C 0) := by
  induction n generalizing F with
  | zero => exact .of_same nofun (.refl _)
  | succ n ih =>
    refine ((ih fun i => F (i + 1)).add_zero (leibniz_zeros F hC n)).congr ⟨?_, ?_⟩
    · rintro ⟨-, hF⟩ i hi
      exact hF i (by omega)
    · intro h
      exact ⟨fun i hi => h (i + 1) (by omega), fun i hi => h i (by omega)⟩

end Product

variable {power : Float → Float → Float} {x : Float}

/-- All derivatives of a sum are sums of derivatives. -/
theorem nthDerivative_sum {α : Type} [Elementary α] (n : Nat) (f g : Formula α) :
    nthDerivative n (.combine .sum f g) =
      .combine .sum (nthDerivative n f) (nthDerivative n g) := by
  induction n generalizing f g with
  | zero => rfl
  | succ n ih => exact ih f.derivative g.derivative

/-- The derivatives of a product have the values that the rule of products gives, by
induction on how many there are. -/
theorem derivativeValue_product (n : Nat) (f g : Formula Float) :
    derivativeValue power x n (.combine .product f g) =
      leibniz (fun i => derivativeValue power x i f) (fun i => derivativeValue power x i g) n := by
  induction n generalizing f g with
  | zero => rfl
  | succ n ih =>
    let _ := Elementary.withPower power
    have hsum := nthDerivative_sum n (.combine .product f.derivative g)
      (.combine .product f g.derivative)
    calc derivativeValue power x (n + 1) (.combine .product f g)
        = derivativeValue power x n (.combine .product f.derivative g) +
            derivativeValue power x n (.combine .product f g.derivative) :=
          congrArg (evaluate x) hsum
      _ = _ := by rw [ih, ih]; rfl

/-- Without differentiating, a constant has its own value. -/
theorem derivativeValue_constant_zero (c : Float) :
    derivativeValue power x 0 (.constant c) = c := rfl

/-- All derivatives of a constant are the literal zero. -/
theorem derivativeValue_constant_succ (c : Float) (n : Nat) :
    derivativeValue power x (n + 1) (.constant c) = 0 := by
  induction n generalizing c with
  | zero => rfl
  | succ n ih => exact ih 0

/-- So they equal zero as doubles. -/
theorem derivativeValue_constant_beq_zero (c : Float) (n : Nat) :
    (derivativeValue power x (n + 1) (.constant c) == 0) = true := by
  rw [derivativeValue_constant_succ]
  exact zero_beq_zero

/-- The derivative of `x ^ c` by the rule for constant exponents. -/
theorem derivativeValue_powerOfArgument (c : Float) (n : Nat) :
    derivativeValue power x (n + 1) (powerOfArgument c) =
      derivativeValue power x n (.combine .product
        (.combine .product (.constant c) (powerOfArgument (c - 1))) (.constant 1)) := rfl

/-- One derivative of a power multiplies by the exponent and lowers it by one. The
factors that are not finite are found on the way. -/
theorem derivativeValue_power_succ (c : Float) (n : Nat) :
    SameIf (∀ i < n, (c * derivativeValue power x i (powerOfArgument (c - 1))).isFinite = true)
      (derivativeValue power x (n + 1) (powerOfArgument c))
      (c * derivativeValue power x n (powerOfArgument (c - 1))) := by
  let A (i : Nat) := derivativeValue power x i (powerOfArgument (c - 1))
  let B (i : Nat) :=
    derivativeValue power x i (.combine .product (.constant c) (powerOfArgument (c - 1)))
  have hfactor (i : Nat) : SameIf (∀ j < i, (A j).isFinite = true) (B i) (c * A i) := by
    have hconstant := leibniz_constant A (fun j => derivativeValue power x j (.constant c))
      (derivativeValue_constant_beq_zero c) i
    rw [leibniz_comm, ← derivativeValue_product, Double.mul_comm] at hconstant
    exact hconstant
  -- The derivative of the base, one, is left as a factor behind them.
  have hone : SameIf (∀ i < n, (B i).isFinite = true)
      (derivativeValue power x (n + 1) (powerOfArgument c)) (B n) := by
    have hconstant := leibniz_constant B (fun j => derivativeValue power x j (.constant 1))
      (derivativeValue_constant_beq_zero 1) n
    rw [← derivativeValue_product, ← derivativeValue_powerOfArgument,
      derivativeValue_constant_zero, Double.mul_one] at hconstant
    exact hconstant
  constructor
  · intro h
    have hA (i : Nat) (hi : i < n) : (A i).isFinite = true := isFinite_of_mul (h i hi)
    have hB (i : Nat) (hi : i ≤ n) : Same (B i) (c * A i) :=
      (hfactor i).same fun j hj => hA j (by omega)
    exact (hone.same fun i hi => (hB i hi.le).isFinite (h i hi)).trans (hB n le_rfl)
  · intro h
    refine hone.isNaN fun hB => h fun i hi => ?_
    have hA := (hfactor i).prop_of_isFinite (hB i hi)
    exact ((hfactor i).same hA).symm.isFinite (hB i hi)

/-- A derivative of a power is what calculus has for it if those before it are
finite, and no number otherwise. -/
theorem derivativeValue_power (n : Nat) (c : Float) :
    SameIf (∀ i < n, 0 < i → (loweredPower power x i c).isFinite = true)
      (derivativeValue power x n (powerOfArgument c)) (loweredPower power x n c) := by
  -- All lower derivatives of the lowered power stand in the sum, not only the last one.
  induction n using Nat.strong_induction_on generalizing c with
  | h n ih =>
    cases n with
    | zero => exact .of_same nofun (.refl _)
    | succ n =>
      have hstep := @derivativeValue_power_succ power x c n
      constructor
      · intro h
        have hlower (i : Nat) (hi : i < n) :
            (c * loweredPower power x i (c - 1)).isFinite = true :=
          h (i + 1) (by omega) (Nat.succ_pos i)
        have hsame (i : Nat) (hi : i ≤ n) :
            Same (c * derivativeValue power x i (powerOfArgument (c - 1)))
              (c * loweredPower power x i (c - 1)) :=
          ((ih i (by omega) (c - 1)).same fun j hj _ =>
            isFinite_of_mul (hlower j (by omega))).mul_left c
        exact (hstep.same fun i hi => (hsame i hi.le).isFinite (hlower i hi)).trans
          (hsame n le_rfl)
      · intro h
        refine hstep.isNaN fun hvalue => h fun i hi hpos => ?_
        cases i with
        | zero => cases hpos
        | succ i =>
          have hsame := ih i (by omega) (c - 1)
          have hfinite := hvalue i (by omega)
          exact ((hsame.same (hsame.prop_of_isFinite (isFinite_of_mul hfinite))).mul_left
            c).symm.isFinite hfinite

/-- Below zero only a zero or no number is left of a whole exponent. -/
theorem loweredPower_whole {k n : Nat} (hlt : k < 2 ^ 53) (hkn : k < n) :
    (loweredPower power x n (Float.ofNat k) == 0) = true ∨
      (loweredPower power x n (Float.ofNat k)).isNaN = true := by
  obtain ⟨n, rfl⟩ := Nat.exists_eq_add_of_lt hkn
  induction k with
  | zero =>
    rw [loweredPower, Double.mul_comm]
    cases hfinite : (loweredPower power x (0 + n) (Float.ofNat 0 - 1)).isFinite with
    | true => exact .inl (Double.mul_zero hfinite zero_beq_zero)
    | false => exact .inr (isNaN_mul_zero hfinite zero_beq_zero)
  | succ k ih =>
    have hexponent : (Float.ofNat (k + 1)).isFinite = true := isFinite_ofNat hlt
    rw [show k + 1 + n + 1 = k + n + 1 + 1 by omega, loweredPower, ofNat_succ_sub_one hlt]
    rcases ih (by omega) (by omega) with hzero | hnan
    · exact .inl (Double.mul_zero hexponent hzero)
    · rw [Double.mul_comm]
      exact .inr (isNaN_mul hnan _)

section WholeExponents

variable {k n : Nat}

/-- More derivatives than the exponent of a power are zero where all that calculus has for
them are finite: one factor of each is zero. -/
theorem derivativeValue_beq_zero (hlt : k < 2 ^ 53) (hkn : k < n)
    (hfinite : ∀ i ≤ n, 0 < i → (loweredPower power x i (Float.ofNat k)).isFinite = true) :
    (derivativeValue power x n (powerOfArgument (Float.ofNat k)) == 0) = true := by
  have hvalue := @derivativeValue_power power x n (Float.ofNat k)
  refine (hvalue.same fun i hi => hfinite i hi.le).beq_zero ?_
  exact (loweredPower_whole hlt hkn).resolve_right
    (not_isNaN_of_isFinite (hfinite n le_rfl (by omega)))

/-- More derivatives than the exponent of a power are no number where one that calculus
has for them is not finite: it is multiplied by zero. -/
theorem isNaN_derivativeValue (hlt : k < 2 ^ 53) (hkn : k < n)
    (hfinite : ¬∀ i ≤ n, 0 < i → (loweredPower power x i (Float.ofNat k)).isFinite = true) :
    (derivativeValue power x n (powerOfArgument (Float.ofNat k))).isNaN = true := by
  have hvalue := @derivativeValue_power power x n (Float.ofNat k)
  by_cases hbefore : ∀ i < n, 0 < i → (loweredPower power x i (Float.ofNat k)).isFinite = true
  · refine (hvalue.same hbefore).isNaN ((loweredPower_whole hlt hkn).resolve_left fun hzero => ?_)
    refine hfinite fun i hi hpos => ?_
    rcases hi.eq_or_lt with rfl | hi
    · exact isFinite_of_beq_zero hzero
    · exact hbefore i hi hpos
  · exact hvalue.isNaN hbefore

/-- Where the reciprocal of the argument is not finite, neither is the derivative in which
the exponent has fallen below zero. -/
theorem isFinite_loweredPower_eq_false (hpole : (power x (-1)).isFinite = false)
    (hlt : k < 2 ^ 53) : (loweredPower power x (k + 1) (Float.ofNat k)).isFinite = false := by
  induction k with
  | zero => exact isFinite_mul_eq_false _ hpole
  | succ k ih =>
    rw [loweredPower, ofNat_succ_sub_one hlt]
    exact isFinite_mul_eq_false _ (ih (by omega))

/-- Where the reciprocal is not finite, as at zero, no such derivative is a number. -/
theorem isNaN_derivativeValue_of_pole (hpole : (power x (-1)).isFinite = false)
    (hlt : k < 2 ^ 53) (hkn : k < n) :
    (derivativeValue power x n (powerOfArgument (Float.ofNat k))).isNaN = true := by
  refine isNaN_derivativeValue hlt hkn fun hfinite => ?_
  have hbelow := hfinite (k + 1) hkn (Nat.succ_pos k)
  rw [isFinite_loweredPower_eq_false hpole hlt] at hbelow
  cases hbelow

/-- A power with a whole exponent, differentiated more often than that, is zero where
the derivatives that calculus has for it are finite in doubles, and no number
elsewhere. So it is no number where the reciprocal of the argument is not finite, as at
zero. -/
theorem derivativeValue_power_of_lt (power : Float → Float → Float) (x : Float)
    (hlt : k < 2 ^ 53) (hkn : k < n) :
    ((∀ i ≤ n, 0 < i → (loweredPower power x i (Float.ofNat k)).isFinite = true) →
        (derivativeValue power x n (powerOfArgument (Float.ofNat k)) == 0) = true) ∧
      (¬(∀ i ≤ n, 0 < i → (loweredPower power x i (Float.ofNat k)).isFinite = true) →
        (derivativeValue power x n (powerOfArgument (Float.ofNat k))).isNaN = true) ∧
      ((power x (-1)).isFinite = false →
        (derivativeValue power x n (powerOfArgument (Float.ofNat k))).isNaN = true) :=
  ⟨derivativeValue_beq_zero hlt hkn, isNaN_derivativeValue hlt hkn,
    fun hpole => isNaN_derivativeValue_of_pole hpole hlt hkn⟩

/-- Powers with whole exponents by repeated multiplication. -/
def repeatedPower (x y : Float) : Float :=
  if 0 ≤ y then Nat.repeat (x * ·) y.toUInt64.toNat 1
  else 1 / Nat.repeat (x * ·) (-y).toUInt64.toNat 1

/-- The fourth derivative of a cube is zero at two, where all the derivatives before it
are finite, and no number at zero, where the reciprocal of the argument is not. -/
theorem derivativeValue_power_of_lt_cubed :
    3 < 2 ^ 53 ∧ 3 < 4 ∧
      (∀ i ≤ 4, 0 < i → (loweredPower repeatedPower 2 i (Float.ofNat 3)).isFinite = true) ∧
      (derivativeValue repeatedPower 2 4 (powerOfArgument (Float.ofNat 3)) == 0) = true ∧
      (repeatedPower 0 (-1)).isFinite = false ∧
      (derivativeValue repeatedPower 0 4 (powerOfArgument (Float.ofNat 3))).isNaN = true := by
  have hfinite : ∀ i ≤ 4, 0 < i →
      (loweredPower repeatedPower 2 i (Float.ofNat 3)).isFinite = true := by decide +kernel
  have hpole : (repeatedPower 0 (-1)).isFinite = false := by decide +kernel
  obtain ⟨hzero, -, -⟩ :=
    derivativeValue_power_of_lt repeatedPower 2 (show 3 < 2 ^ 53 by decide) (show 3 < 4 by decide)
  obtain ⟨-, -, hnan⟩ :=
    derivativeValue_power_of_lt repeatedPower 0 (show 3 < 2 ^ 53 by decide) (show 3 < 4 by decide)
  exact ⟨by decide, by decide, hfinite, hzero hfinite, hpole, hnan hpole⟩

/-- At zero the fourth derivative of a cube is no number, though the cube and the
factorial of its exponent are finite. -/
theorem isNaN_derivativeValue_cubedAtZero :
    3 < 4 ∧ (Float.ofNat (Nat.factorial 3)).isFinite = true ∧ (0 : Float).isFinite = true ∧
      (repeatedPower 0 (Float.ofNat 3)).isFinite = true ∧
      (derivativeValue repeatedPower 0 4 (powerOfArgument (Float.ofNat 3))).isNaN = true ∧
      (derivativeValue repeatedPower 0 4 (powerOfArgument (Float.ofNat 3)) == 0) = false := by
  have hnan : (derivativeValue repeatedPower 0 4 (powerOfArgument (Float.ofNat 3))).isNaN = true :=
    isNaN_derivativeValue_of_pole (by decide +kernel) (by decide) (by decide)
  refine ⟨by decide, by decide +kernel, by decide +kernel, by decide +kernel, hnan, ?_⟩
  rw [← Bool.not_eq_true]
  exact fun hzero => not_isNaN_of_isFinite (isFinite_of_beq_zero hzero) hnan

end WholeExponents

end Formula

end FormulaCalculator
