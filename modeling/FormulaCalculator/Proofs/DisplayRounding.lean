import FormulaCalculator.Proofs.CanonicalDecimal
import FormulaCalculator.Proofs.DisplayWidth

/-!
# The numbers that a display shows

What a display shows is a canonical decimal, or one with a power of ten behind it, and
its value is the exact value of the double after a single rounding: to the decimals
of the display, or to one significant digit more than these. An exact half goes to the
even neighbour. A mantissa that is rounded up to ten becomes one, with the next
greater exponent, so it always has one digit before its point.
-/

set_option autoImplicit false

namespace FormulaCalculator.Number

variable {x : Float} {display : Display} {log10 : Float → Float} {num den : Nat}

/-! ## Rounding to decimals and to digits -/

/-- Of all integers this one is nearest to the number; of two that are equally near it
is the even one. -/
structure IsNearestInteger (n : ℤ) (q : ℚ) : Prop where
  nearest : ∀ k : ℤ, |(n - q : ℚ)| ≤ |(k - q : ℚ)|
  tie : ∀ k : ℤ, k ≠ n → |(k - q : ℚ)| = |(n - q : ℚ)| → Even n

/-- The number `r` is `q` rounded to the given number of decimals. -/
def IsRoundedTo (decimals : ℤ) (r q : ℚ) : Prop :=
  ∃ n : ℤ, IsNearestInteger n (q * 10 ^ decimals) ∧ r = n / 10 ^ decimals

/-- The number `r` is `q` rounded to the given number of significant digits, the first
of which stands for the greatest power of ten that is not above the magnitude of `q`. -/
def IsRoundedToDigits (count : ℕ) (r q : ℚ) : Prop :=
  ∃ k : ℤ, 10 ^ k ≤ |q| ∧ |q| < 10 ^ (k + 1) ∧ IsRoundedTo (count - 1 - k) r q

/-- An integer that is at most a half away is nearest. -/
theorem isNearestInteger_of_abs_le {n : ℤ} {q : ℚ} (hnear : |(n - q : ℚ)| ≤ 1 / 2)
    (htie : |(n - q : ℚ)| = 1 / 2 → Even n) : IsNearestInteger n q := by
  have hfar (k : ℤ) (hk : k ≠ n) : (1 : ℚ) ≤ |(k - q : ℚ)| + |(n - q : ℚ)| := by
    have hone : (1 : ℤ) ≤ |k - n| := Int.one_le_abs (sub_ne_zero.mpr hk)
    have hone : (1 : ℚ) ≤ |(k - n : ℚ)| := by exact_mod_cast hone
    have htriangle := abs_sub_le (k : ℚ) q n
    rw [abs_sub_comm q] at htriangle
    exact hone.trans htriangle
  constructor
  · intro k
    by_cases hk : k = n
    · rw [hk]
    · have := hfar k hk
      linarith
  · intro k hk heq
    have := hfar k hk
    exact htie (by linarith)

/-- Rounding to the nearest integer treats both signs alike, ties included. -/
theorem IsNearestInteger.neg {n : ℤ} {q : ℚ} (h : IsNearestInteger n q) :
    IsNearestInteger (-n) (-q) := by
  have hmirror (k : ℤ) : |((-k : ℤ) - -q : ℚ)| = |(k - q : ℚ)| := by
    rw [Int.cast_neg, neg_sub_neg, abs_sub_comm]
  constructor
  · intro k
    rw [hmirror n, ← neg_neg k, hmirror]
    exact h.nearest (-k)
  · intro k hk heq
    rw [hmirror n, ← neg_neg k, hmirror] at heq
    exact (h.tie (-k) (fun hn => hk (by rw [← hn, neg_neg])) heq).neg

/-- Rounding does not depend on the sign. -/
theorem IsRoundedTo.withSign {decimals : ℤ} {r q : ℚ} (h : IsRoundedTo decimals r q)
    (negative : Bool) : IsRoundedTo decimals (withSign negative r) (withSign negative q) := by
  obtain ⟨n, hn, rfl⟩ := h
  cases negative with
  | false => exact ⟨n, hn, rfl⟩
  | true =>
    refine ⟨-n, ?_, ?_⟩
    · change IsNearestInteger (-n) (-q * 10 ^ decimals)
      rw [neg_mul]
      exact hn.neg
    · change -(n / 10 ^ decimals : ℚ) = _
      rw [Int.cast_neg, neg_div]

/-- A quotient is rounded to the nearest integer. -/
theorem isNearestInteger_roundQuotient (num : Nat) (hden : 0 < den) :
    IsNearestInteger (roundQuotient .toEven num den) (num / den : ℚ) := by
  have hden' : (0 : ℚ) < den := by exact_mod_cast hden
  have hquotient : (num / den * den : ℚ) = num := div_mul_cancel₀ _ hden'.ne'
  have hle := roundQuotient_mul_le .toEven num den
  have hge := le_roundQuotient_mul .toEven num hden
  have htie (k : Nat) := @roundQuotient_of_tie num den k hden
  generalize roundQuotient .toEven num den = r at hle hge htie ⊢
  rw [← @Nat.cast_le ℚ] at hle hge
  push_cast at hle hge
  refine isNearestInteger_of_abs_le ?_ fun hhalf => ?_
  · rw [abs_le]
    constructor <;> push_cast <;> nlinarith
  · rw [Int.even_coe_nat, Nat.even_iff]
    push_cast at hhalf
    rcases eq_or_eq_neg_of_abs_eq hhalf with habove | hbelow
    · have hexact : (2 * num + den : ℚ) = 2 * r * den := by
        rw [← hquotient]
        linear_combination -2 * den * habove
      have hexact : 2 * num + den = 2 * r * den := by exact_mod_cast hexact
      obtain ⟨k, rfl⟩ : ∃ k, r = k + 1 := by
        refine ⟨r - 1, (Nat.sub_add_cancel (Nat.pos_of_ne_zero ?_)).symm⟩
        rintro rfl
        omega
      have hround := htie k (by linarith)
      omega
    · have hexact : (2 * num : ℚ) = (2 * r + 1) * den := by
        rw [← hquotient]
        linear_combination -2 * den * hbelow
      have hround := htie r (by exact_mod_cast hexact)
      omega

/-- A scaled quotient that is rounded stands for the rounded number. -/
theorem isRoundedTo_roundQuotient {decimals : ℤ} {q : ℚ} (hden : 0 < den)
    (hscale : (num / den : ℚ) = q * 10 ^ decimals) :
    IsRoundedTo decimals (roundQuotient .toEven num den / 10 ^ decimals) q :=
  ⟨roundQuotient .toEven num den, hscale ▸ isNearestInteger_roundQuotient num hden, rfl⟩

/-- A sign can be put in front before or after rounding to a number of digits. -/
theorem IsRoundedToDigits.withSign {count : ℕ} {r q : ℚ} (h : IsRoundedToDigits count r q)
    (negative : Bool) : IsRoundedToDigits count (withSign negative r) (withSign negative q) := by
  obtain ⟨k, hlow, hhigh, hround⟩ := h
  refine ⟨k, ?_, ?_, hround.withSign negative⟩
  · rw [abs_withSign]
    exact hlow
  · rw [abs_withSign]
    exact hhigh

/-- A positive number with so many digits lies between two powers of ten. -/
theorem digitCount_bounds {n : Nat} (h : 0 < n) :
    0 < digitCount n ∧ 10 ^ (digitCount n - 1) ≤ n ∧ n < 10 ^ digitCount n := by
  have hpos : 0 < digitCount n := by
    rw [digitCount, if_neg h.ne']
    exact Nat.length_toDigits_pos
  refine ⟨hpos, ?_, lt_ten_pow_digitCount n⟩
  rcases Nat.eq_zero_or_pos (digitCount n - 1) with hone | hmore
  · rw [hone]
    exact h
  · rw [← not_lt, ← Nat.length_toDigits_le_iff (by decide) hmore]
    rw [digitCount, if_neg h.ne'] at hpos ⊢
    omega

/-- A positive quotient is between the powers of ten of its exponent. -/
theorem decimalExponent_spec (hnum : 0 < num) (hden : 0 < den) :
    (10 : ℚ) ^ decimalExponent num den ≤ num / den ∧
      (num / den : ℚ) < (10 : ℚ) ^ (decimalExponent num den + 1) :=
  @digitExponent_spec 10 num den digitCount (by decide) (fun _ => digitCount_bounds) hnum hden

namespace Display

variable {negative : Bool}

/-- A number that is shown plainly is rounded to the decimals. -/
theorem exists_plain (display : Display) (negative : Bool) (num : Nat) (hden : 0 < den) :
    ∃ d : CanonicalDecimal display.decimals, display.plain negative num den = d.text ∧
      IsRoundedTo display.decimals d.value (withSign negative (num / den)) := by
  refine ⟨.ofScaled negative (roundQuotient .toEven (num * 10 ^ display.decimals) den)
    display.decimals, ?_, ?_⟩
  · rw [CanonicalDecimal.text_ofScaled]
    unfold plain
    dsimp only
    rw [Nat.pow_eq]
    congr 2
    rw [Bool.eq_iff_iff, bne_iff_ne, bne_iff_ne, ne_eq, trimDecimals_placePoint_eq_zero_iff]
  · rw [CanonicalDecimal.value_ofScaled, ← zpow_natCast]
    refine (isRoundedTo_roundQuotient hden ?_).withSign negative
    push_cast
    rw [zpow_natCast]
    exact mul_div_right_comm _ _ _

/-- A number that is shown with a power of ten has a mantissa with one digit before its
point and the decimals behind it, rounded to that many digits. -/
theorem exists_mantissa (display : Display) (negative : Bool) (hnum : 0 < num) (hden : 0 < den) :
    ∃ mantissa : Nat, ∃ exponent : ℤ,
      display.scientific negative num den =
        signed negative (trimDecimals (placePoint mantissa display.decimals)) ++
          'E' :: signed (exponent < 0) (digits exponent.natAbs) ∧
      10 ^ display.decimals ≤ mantissa ∧ mantissa < 10 ^ (display.decimals + 1) ∧
      IsRoundedToDigits (display.decimals + 1)
        (mantissa / 10 ^ display.decimals * 10 ^ exponent) (num / den) := by
  obtain ⟨hlow, hhigh⟩ := decimalExponent_spec hnum hden
  unfold scientific
  simp only [if_neg hnum.ne', Nat.pow_eq]
  generalize decimalExponent num den = k at hlow hhigh ⊢
  have hscale := @scaleBy_div 10 num den (by decide) (display.decimals - k)
  have hscaledDen := @scaleBy_den_pos 10 num den (by decide) hden (display.decimals - k)
  generalize scaleBy 10 num den (display.decimals - k) = scaled at hscale hscaledDen ⊢
  obtain ⟨scaledNum, scaledDen⟩ := scaled
  dsimp only at hscale hscaledDen ⊢
  have hround := isRoundedTo_roundQuotient hscaledDen hscale
  have hscaledDen' : (0 : ℚ) < scaledDen := by exact_mod_cast hscaledDen
  have hpower (n : ℤ) : (10 : ℚ) ^ n * 10 ^ (display.decimals - k : ℤ) =
      10 ^ (n - k + display.decimals) := by
    rw [← zpow_add₀ (by norm_num)]
    congr 1
    ring
  have hle : 10 ^ display.decimals ≤ roundQuotient .toEven scaledNum scaledDen := by
    refine le_roundQuotient hscaledDen ?_
    have hbound : (10 ^ display.decimals : ℚ) ≤ scaledNum / scaledDen := by
      calc (10 ^ display.decimals : ℚ) = 10 ^ k * 10 ^ (display.decimals - k : ℤ) := by
            rw [hpower, sub_self, zero_add, zpow_natCast]
        _ ≤ num / den * 10 ^ (display.decimals - k : ℤ) := by gcongr
        _ = scaledNum / scaledDen := hscale.symm
    rw [le_div_iff₀ hscaledDen'] at hbound
    exact_mod_cast hbound
  have hge : roundQuotient .toEven scaledNum scaledDen ≤ 10 ^ (display.decimals + 1) := by
    refine roundQuotient_le hscaledDen ?_
    have hbound : (scaledNum / scaledDen : ℚ) ≤ 10 ^ (display.decimals + 1) := by
      calc (scaledNum / scaledDen : ℚ) = num / den * 10 ^ (display.decimals - k : ℤ) := hscale
        _ ≤ 10 ^ (k + 1) * 10 ^ (display.decimals - k : ℤ) := by gcongr
        _ = 10 ^ (display.decimals + 1) := by
          rw [hpower, add_sub_cancel_left, add_comm, ← Nat.cast_one, ← Nat.cast_add, zpow_natCast]
    rw [div_le_iff₀ hscaledDen'] at hbound
    exact_mod_cast hbound
  generalize roundQuotient .toEven scaledNum scaledDen = rounded at hround hle hge ⊢
  have hdigits (r : ℚ) (hr : r = rounded / 10 ^ (display.decimals - k : ℤ)) :
      IsRoundedToDigits (display.decimals + 1) r (num / den) := by
    have habs : |(num / den : ℚ)| = num / den := abs_of_nonneg (by positivity)
    refine ⟨k, by rwa [habs], by rwa [habs], ?_⟩
    rw [hr, Nat.cast_succ, add_sub_cancel_right]
    exact hround
  split
  -- Rounding has carried into one digit more, so the mantissa is one and the exponent grows.
  · next hcarry =>
    refine ⟨10 ^ display.decimals, k + 1, rfl, le_rfl, Nat.pow_lt_pow_succ (by decide),
      hdigits _ ?_⟩
    rw [hcarry, zpow_sub₀ (by norm_num), zpow_add_one₀ (by norm_num), zpow_natCast, pow_succ]
    push_cast
    field_simp
  · next hnotCarry =>
    refine ⟨rounded, k, rfl, hle, by omega, hdigits _ ?_⟩
    rw [zpow_sub₀ (by norm_num), zpow_natCast]
    field_simp

/-- A number that is shown with a power of ten is rounded to one digit more than the
decimals, and its mantissa has one digit before the point. -/
theorem exists_scientific (display : Display) (negative : Bool) (hnum : 0 < num)
    (hden : 0 < den) :
    ∃ (mantissa : CanonicalDecimal display.decimals) (exponent : CanonicalDecimal 0) (k : ℤ),
      display.scientific negative num den = mantissa.text ++ 'E' :: exponent.text ∧
      exponent.value = k ∧ 1 ≤ |mantissa.value| ∧ |mantissa.value| < 10 ∧
      IsRoundedToDigits (display.decimals + 1) (mantissa.value * 10 ^ k)
        (withSign negative (num / den)) := by
  obtain ⟨m, k, htext, hlow, hhigh, hround⟩ := exists_mantissa display negative hnum hden
  have hpow : (0 : ℚ) < 10 ^ display.decimals := by positivity
  have hm : (m != 0) = true := by
    rw [bne_iff_ne]
    rintro rfl
    exact absurd hlow (by simp)
  have hk : (decide (k < 0) && k.natAbs != 0) = decide (k < 0) := by
    rw [Bool.and_eq_left_iff_imp, decide_eq_true_eq, bne_iff_ne]
    omega
  refine ⟨.ofScaled negative m display.decimals, .ofScaled (k < 0) k.natAbs 0, k,
    ?_, ?_, ?_, ?_, ?_⟩
  · rw [htext, CanonicalDecimal.text_ofScaled, CanonicalDecimal.text_ofScaled_zero, hm, hk,
      Bool.and_true]
  · rw [CanonicalDecimal.value_ofScaled, pow_zero, div_one]
    unfold withSign
    split
    · next hneg =>
      rw [decide_eq_true_eq] at hneg
      rw [Nat.cast_natAbs, abs_of_neg hneg, Int.cast_neg, neg_neg]
    · next hnonneg =>
      rw [decide_eq_true_eq, not_lt] at hnonneg
      rw [Nat.cast_natAbs, abs_of_nonneg hnonneg]
  · rw [CanonicalDecimal.value_ofScaled, abs_withSign, abs_of_nonneg (by positivity),
      le_div_iff₀ hpow, one_mul]
    exact_mod_cast hlow
  · rw [CanonicalDecimal.value_ofScaled, abs_withSign, abs_of_nonneg (by positivity),
      div_lt_iff₀ hpow, ← pow_succ']
    exact_mod_cast hhigh
  · rw [CanonicalDecimal.value_ofScaled, withSign_mul]
    exact hround.withSign negative

/-- What a display shows for a number other than zero is a canonical decimal of the
rounded number: rounded to the decimals if it is shown plainly, and otherwise, as a
mantissa with one digit before its point and a power of ten, to one significant digit
more. -/
theorem textOf_canonicalDecimal (display : Display) (log10 : Float → Float)
    (hfinite : x.isFinite = true) (hne : exactValue x ≠ 0) :
    ('E' ∉ display.textOf log10 x →
      ∃ d : CanonicalDecimal display.decimals,
        display.textOf log10 x = d.text ∧ d.text ≠ ['-', '0'] ∧
        IsRoundedTo display.decimals d.value (exactValue x)) ∧
    ('E' ∈ display.textOf log10 x →
      ∃ (mantissa : CanonicalDecimal display.decimals) (exponent : CanonicalDecimal 0) (k : ℤ),
        display.textOf log10 x = mantissa.text ++ 'E' :: exponent.text ∧
        exponent.value = k ∧ 1 ≤ |mantissa.value| ∧ |mantissa.value| < 10 ∧
        IsRoundedToDigits (display.decimals + 1) (mantissa.value * 10 ^ k) (exactValue x)) := by
  obtain ⟨negative, m, e, hx⟩ := exists_of_isFinite hfinite
  obtain ⟨hden, hquotient⟩ := scaleBy_two m e
  have hvalue : exactValue x =
      withSign negative ((scaleBy 2 m 1 e).1 / (scaleBy 2 m 1 e).2) := by
    rw [hquotient]
    exact exactValue_eq hx
  have hnum : 0 < (scaleBy 2 m 1 e).1 := by
    rw [Nat.pos_iff_ne_zero]
    intro hzero
    rw [hvalue, hzero, ← abs_ne_zero, abs_withSign] at hne
    exact hne (by simp)
  rw [mem_textOf_iff_isScientific hfinite, textOf_finite hx, hvalue]
  constructor
  · intro hplain
    obtain ⟨d, htext, hround⟩ := exists_plain display negative (scaleBy 2 m 1 e).1 hden
    exact ⟨d, (if_neg hplain).trans htext, d.text_ne, hround⟩
  · intro hscientific
    rw [if_pos hscientific]
    exact exists_scientific display negative hnum hden

/-- A display that never shows a number plainly. -/
def noDigits : Display := ⟨0, 2, 0⟩

/-- The double before ten is shown as ten on a display of one digit, and as ten to the
first power on one that shows no number plainly. -/
theorem textOf_canonicalDecimal_belowTen :
    (belowTen.isFinite = true ∧ exactValue belowTen ≠ 0) ∧
    ('E' ∉ oneDigit.textOf (fun _ => belowOne) belowTen ∧
      ∃ d : CanonicalDecimal oneDigit.decimals,
        oneDigit.textOf (fun _ => belowOne) belowTen = d.text ∧ d.text ≠ ['-', '0'] ∧
        IsRoundedTo oneDigit.decimals d.value (exactValue belowTen)) ∧
    ('E' ∈ noDigits.textOf (fun _ => belowOne) belowTen ∧
      ∃ (mantissa : CanonicalDecimal noDigits.decimals) (exponent : CanonicalDecimal 0) (k : ℤ),
        noDigits.textOf (fun _ => belowOne) belowTen = mantissa.text ++ 'E' :: exponent.text ∧
        exponent.value = k ∧ 1 ≤ |mantissa.value| ∧ |mantissa.value| < 10 ∧
        IsRoundedToDigits (noDigits.decimals + 1) (mantissa.value * 10 ^ k)
          (exactValue belowTen)) := by
  have hfinite := isFinite_of_ofFloat ofFloat_belowTen
  have hne : exactValue belowTen ≠ 0 := by
    rw [← abs_pos, abs_exactValue_belowTen]
    norm_num
  have hscientific : 'E' ∈ noDigits.textOf (fun _ => belowOne) belowTen := by
    rw [mem_textOf_iff_isScientific hfinite, isScientific_iff hfinite hne]
    refine .inl ?_
    unfold wholeDigitsOf
    split
    · exact Nat.one_pos
    · exact Nat.succ_pos _
  exact ⟨⟨hfinite, hne⟩,
    ⟨not_mem_textOf_belowTen,
      (textOf_canonicalDecimal oneDigit _ hfinite hne).1 not_mem_textOf_belowTen⟩,
    ⟨hscientific, (textOf_canonicalDecimal noDigits _ hfinite hne).2 hscientific⟩⟩

end Display

end FormulaCalculator.Number
