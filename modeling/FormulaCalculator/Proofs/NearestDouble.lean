import FormulaCalculator.Proofs.FloatBits

/-!
# The double nearest to a quotient

The rational numbers that are rounded to a double form an interval around it,
half way to the neighbours on either side. Below a power of two the neighbour is
only half as far away. The ends belong to the interval if the mantissa is even.
-/

set_option autoImplicit false

namespace FormulaCalculator.Number

/-- Half way between two integers, a quotient is rounded to the even one. -/
theorem roundQuotient_of_tie {num den n : Nat} (hden : 0 < den)
    (h : 2 * num = (2 * n + 1) * den) : roundQuotient .toEven num den = n + n % 2 := by
  have hsplit : num = n * den + (num - n * den) := by
    have hle : n * den ≤ num := by nlinarith
    omega
  have hrest : 2 * (num - n * den) = den := by
    have hmul : (2 * n + 1) * den = 2 * (n * den) + den := by ring
    omega
  have hlt : num - n * den < den := by omega
  have hdiv : num / den = n := by
    rw [hsplit, Nat.add_comm, Nat.add_mul_div_right _ _ hden, Nat.div_eq_of_lt hlt, Nat.zero_add]
  have hmod : num % den = num - n * den := by
    rw [hsplit, Nat.add_comm, Nat.add_mul_mod_self_right, Nat.mod_eq_of_lt hlt]
    omega
  unfold roundQuotient
  rw [hdiv, hmod, Nat.compare_eq_eq.mpr hrest]

/-- A number is rounded to one that is at most a half away, of two the even one. -/
theorem roundQuotient_eq {num den n : Nat} (hden : 0 < den) (hlow : 2 * n * den ≤ 2 * num + den)
    (hhigh : 2 * num ≤ (2 * n + 1) * den)
    (htie : n % 2 = 0 ∨ 2 * n * den < 2 * num + den ∧ 2 * num < (2 * n + 1) * den) :
    roundQuotient .toEven num den = n := by
  have hle := roundQuotient_mul_le .toEven num den
  have hge := le_roundQuotient_mul .toEven num hden
  have htie' (k : Nat) := @roundQuotient_of_tie num den k hden
  generalize roundQuotient .toEven num den = r at hle hge htie' ⊢
  rcases Nat.lt_trichotomy r n with hlt | heq | hgt
  · obtain ⟨d, rfl⟩ : ∃ d, n = r + 1 + d := ⟨n - (r + 1), by omega⟩
    have hd : d * den = 0 := by nlinarith
    have hhalf : 2 * num = (2 * r + 1) * den := by nlinarith
    have heven := htie' r hhalf
    have hd' : d = 0 := by
      rcases Nat.mul_eq_zero.mp hd with h | h <;> omega
    subst hd'
    rcases htie with h | ⟨h, -⟩
    · omega
    · nlinarith
  · exact heq
  · obtain ⟨d, rfl⟩ : ∃ d, r = n + 1 + d := ⟨r - (n + 1), by omega⟩
    have hhalf : 2 * num = (2 * n + 1) * den := by nlinarith
    have heven := htie' n hhalf
    rcases htie with h | ⟨-, h⟩ <;> omega

/-- Rounding does not pass a whole number from below. -/
theorem roundQuotient_le {num den n : Nat} (hden : 0 < den) (hle : num ≤ n * den) :
    roundQuotient .toEven num den ≤ n := by
  have hround := roundQuotient_mul_le .toEven num den
  by_contra hlt
  have hmul : 2 * (n + 1) * den ≤ 2 * roundQuotient .toEven num den * den := by
    gcongr
    omega
  have hexpand : 2 * (n + 1) * den = 2 * (n * den) + 2 * den := by ring
  omega

/-- Rounding does not pass a whole number from above. -/
theorem le_roundQuotient {num den n : Nat} (hden : 0 < den) (hle : n * den ≤ num) :
    n ≤ roundQuotient .toEven num den := by
  have hround := le_roundQuotient_mul .toEven num hden
  by_contra hlt
  have hmul : (2 * roundQuotient .toEven num den + 2) * den ≤ 2 * n * den := by
    gcongr
    omega
  have hexpand : (2 * roundQuotient .toEven num den + 2) * den =
      (2 * roundQuotient .toEven num den + 1) * den + den := by ring
  rw [Nat.mul_assoc] at hmul
  omega

/-- Scaling a fraction by a power of the base multiplies its value by that power, whatever
the sign of the exponent. -/
theorem scaleBy_div {base num den : Nat} (hbase : 0 < base) (exponent : Int) :
    (((scaleBy base num den exponent).1 : ℚ) / (scaleBy base num den exponent).2) =
      num / den * (base : ℚ) ^ exponent := by
  have hne : (base : ℚ) ≠ 0 := by positivity
  have hpow : (base : ℚ) ^ exponent =
      (base : ℚ) ^ exponent.toNat / (base : ℚ) ^ (-exponent).toNat := by
    rw [← zpow_natCast, ← zpow_natCast, ← zpow_sub₀ hne]
    congr 1
    omega
  rw [scaleBy, hpow, Nat.pow_eq, Nat.pow_eq]
  push_cast
  rw [div_mul_div_comm]

/-- The denominator of a scaled fraction is not zero. -/
theorem scaleBy_den_pos {base num den : Nat} (hbase : 0 < base) (hden : 0 < den) (exponent : Int) :
    0 < (scaleBy base num den exponent).2 :=
  Nat.mul_pos hden (Nat.pow_pos hbase)

/-- Counting the digits of the whole part of a quotient, or of its reciprocal, locates
the quotient between two powers of the base. -/
theorem digitExponent_spec {base num den : Nat} {count : Nat → Nat} (hbase : 0 < base)
    (hcount : ∀ n, 0 < n → 0 < count n ∧ base ^ (count n - 1) ≤ n ∧ n < base ^ count n)
    (hnum : 0 < num) (hden : 0 < den) :
    let exponent : Int := if den ≤ num then (count (num / den) : Int) - 1
      else -(count ((den - 1) / num) : Int)
    (base : ℚ) ^ exponent ≤ num / den ∧ (num / den : ℚ) < (base : ℚ) ^ (exponent + 1) := by
  have hden' : (0 : ℚ) < den := by exact_mod_cast hden
  dsimp only
  rw [le_div_iff₀ hden', div_lt_iff₀ hden']
  split
  · next hle =>
    obtain ⟨hpos, hlow, hhigh⟩ := hcount _ (Nat.div_pos hle hden)
    have hlow' : base ^ (count (num / den) - 1) * den ≤ num :=
      (Nat.mul_le_mul_right den hlow).trans (Nat.div_mul_le_self num den)
    have hhigh' : num < base ^ count (num / den) * den :=
      (Nat.lt_mul_div_succ num hden).trans_le (by
        rw [Nat.mul_comm]
        exact Nat.mul_le_mul_right den hhigh)
    rw [show (count (num / den) : ℤ) - 1 = ((count (num / den) - 1 : ℕ) : ℤ) by omega,
      show ((count (num / den) - 1 : ℕ) : ℤ) + 1 = (count (num / den) : ℤ) by omega,
      zpow_natCast, zpow_natCast]
    exact ⟨by exact_mod_cast hlow', by exact_mod_cast hhigh'⟩
  -- Below one the reciprocal is counted, rounded up so that a power of the base stays below it.
  · next hlt =>
    obtain ⟨hpos, hlow, hhigh⟩ := hcount _ (Nat.div_pos (by omega : num ≤ den - 1) hnum)
    have hhigh' : den ≤ num * base ^ count ((den - 1) / num) := by
      have hsucc := Nat.lt_mul_div_succ (den - 1) hnum
      have hpow := Nat.mul_le_mul_left num hhigh
      exact (by omega : den ≤ num * ((den - 1) / num + 1)).trans hpow
    have hlow' : num * base ^ (count ((den - 1) / num) - 1) < den := by
      have hpow := Nat.mul_le_mul_left num hlow
      have hdiv := Nat.mul_div_le (den - 1) num
      omega
    rw [show -(count ((den - 1) / num) : ℤ) + 1 =
        -((count ((den - 1) / num) - 1 : ℕ) : ℤ) by omega,
      zpow_neg, zpow_neg, zpow_natCast, zpow_natCast, inv_mul_le_iff₀ (by positivity),
      lt_inv_mul_iff₀ (by positivity)]
    refine ⟨?_, ?_⟩
    · rw [mul_comm]
      exact_mod_cast hhigh'
    · rw [mul_comm]
      exact_mod_cast hlow'

/-- A positive number with so many bits lies between two powers of two. -/
theorem bitCount_bounds {n : Nat} (h : 0 < n) :
    0 < bitCount n ∧ 2 ^ (bitCount n - 1) ≤ n ∧ n < 2 ^ bitCount n := by
  rw [bitCount, if_neg h.ne', Nat.add_sub_cancel]
  exact ⟨Nat.succ_pos _, Nat.log2_self_le h.ne', Nat.lt_log2_self⟩

/-- A positive quotient is between the powers of two of its exponent. -/
theorem binaryExponent_spec {num den : Nat} (hnum : 0 < num) (hden : 0 < den) :
    (2 : ℚ) ^ binaryExponent num den ≤ num / den ∧
      (num / den : ℚ) < (2 : ℚ) ^ (binaryExponent num den + 1) :=
  @digitExponent_spec 2 num den bitCount (by decide) (fun _ => bitCount_bounds) hnum hden

/-- The binary exponent of a fraction is the one with the two powers of two around its
value. -/
theorem binaryExponent_eq {num den : Nat} {k : ℤ} (hnum : 0 < num) (hden : 0 < den)
    (hlow : (2 : ℚ) ^ k ≤ num / den) (hhigh : (num / den : ℚ) < (2 : ℚ) ^ (k + 1)) :
    binaryExponent num den = k := by
  obtain ⟨hlow', hhigh'⟩ := binaryExponent_spec hnum hden
  have hle := (zpow_lt_zpow_iff_right₀ (by norm_num : (1 : ℚ) < 2)).mp (hlow.trans_lt hhigh')
  have hge := (zpow_lt_zpow_iff_right₀ (by norm_num : (1 : ℚ) < 2)).mp (hlow'.trans_lt hhigh)
  omega

/-- A fraction within a half of an integer is rounded to it, on the very half only if the
integer is even. -/
theorem roundQuotient_eq_of_rat {num den n : Nat} (hden : 0 < den)
    (hlow : (n : ℚ) - 1 / 2 ≤ num / den) (hhigh : (num / den : ℚ) ≤ n + 1 / 2)
    (htie : n % 2 = 0 ∨ (n : ℚ) - 1 / 2 < num / den ∧ (num / den : ℚ) < n + 1 / 2) :
    roundQuotient .toEven num den = n := by
  have hden' : (0 : ℚ) < den := by exact_mod_cast hden
  rw [le_div_iff₀ hden'] at hlow
  rw [div_le_iff₀ hden'] at hhigh
  rw [lt_div_iff₀ hden', div_lt_iff₀ hden'] at htie
  refine roundQuotient_eq hden ?_ ?_ (htie.imp_right fun h => ⟨?_, ?_⟩)
  · have hcast : (2 * n * den : ℚ) ≤ 2 * num + den := by linarith
    exact_mod_cast hcast
  · have hcast : (2 * num : ℚ) ≤ (2 * n + 1) * den := by linarith
    exact_mod_cast hcast
  · have hcast : (2 * n * den : ℚ) < 2 * num + den := by linarith [h.1]
    exact_mod_cast hcast
  · have hcast : (2 * num : ℚ) < (2 * n + 1) * den := by linarith [h.2]
    exact_mod_cast hcast

/-- How far the numbers that are rounded to a double reach below it, in quarters
of the unit of its mantissa. -/
def reach (mantissa : Nat) (exponent : Int) : Nat :=
  if mantissa = 2 ^ (mantissaBits - 1) ∧ leastExponent < exponent then 1 else 2

/-- The rational number is rounded to the double. -/
structure RoundsTo (mantissa : Nat) (exponent : Int) (q : ℚ) : Prop where
  low : (mantissa - reach mantissa exponent / 4 : ℚ) * 2 ^ exponent ≤ q
  high : q ≤ (mantissa + 1 / 2 : ℚ) * 2 ^ exponent
  tie : mantissa % 2 = 0 ∨
    (mantissa - reach mantissa exponent / 4 : ℚ) * 2 ^ exponent < q ∧
      q < (mantissa + 1 / 2 : ℚ) * 2 ^ exponent

variable {m : Nat} {e : Int} {q : ℚ}

/-- What is rounded to a double is at most half a unit below it. -/
theorem reach_le (m : Nat) (e : Int) : (reach m e : ℚ) / 4 ≤ 1 / 2 := by
  unfold reach
  split <;> norm_num

/-- What is rounded to a double is not below the half way to the one before it. -/
theorem RoundsTo.half_le (h : RoundsTo m e q) : (m - 1 / 2 : ℚ) * 2 ^ e ≤ q := by
  refine le_trans ?_ h.low
  have hreach := reach_le m e
  gcongr

/-- What is rounded to a positive double is positive. -/
theorem RoundsTo.pos (h : RoundsTo m e q) (hm : 0 < m) : 0 < q := by
  refine lt_of_lt_of_le ?_ h.half_le
  have hm' : (1 : ℚ) ≤ m := by exact_mod_cast hm
  have hpos : (0 : ℚ) < m - 1 / 2 := by linarith
  positivity

/-- The double itself is among the numbers that are rounded to it. -/
theorem roundsTo_self (m : Nat) (e : Int) : RoundsTo m e (m * 2 ^ e) := by
  have hpow : (0 : ℚ) < 2 ^ e := by positivity
  have hreach : (0 : ℚ) < reach m e := by
    unfold reach
    split <;> norm_num
  have hlow : (m - reach m e / 4 : ℚ) * 2 ^ e < m * 2 ^ e := by
    gcongr
    linarith
  have hhigh : (m * 2 ^ e : ℚ) < (m + 1 / 2) * 2 ^ e := by
    gcongr
    linarith
  exact ⟨hlow.le, hhigh.le, .inr ⟨hlow, hhigh⟩⟩

/-- A quotient that is rounded to a mantissa on the grid of an exponent. -/
theorem roundQuotient_scaleBy {num den n : Nat} {k : Int} (hden : 0 < den)
    (hlow : (n - 1 / 2 : ℚ) * 2 ^ k ≤ num / den) (hhigh : (num / den : ℚ) ≤ (n + 1 / 2) * 2 ^ k)
    (htie : n % 2 = 0 ∨ (n - 1 / 2 : ℚ) * 2 ^ k < num / den ∧
      (num / den : ℚ) < (n + 1 / 2) * 2 ^ k) :
    roundQuotient .toEven (scaleBy 2 num den (-k)).1 (scaleBy 2 num den (-k)).2 = n := by
  have hpow : (0 : ℚ) < 2 ^ k := by positivity
  have hscale := @scaleBy_div 2 num den (by decide) (-k)
  rw [zpow_neg, ← div_eq_mul_inv, Nat.cast_ofNat] at hscale
  rw [← le_div_iff₀ hpow] at hlow
  rw [← div_le_iff₀ hpow] at hhigh
  rw [← lt_div_iff₀ hpow, ← div_lt_iff₀ hpow] at htie
  refine roundQuotient_eq_of_rat (scaleBy_den_pos (by decide) hden _) ?_ ?_ ?_
  all_goals rw [hscale]
  · exact hlow
  · exact hhigh
  · exact htie

/-- A double with an odd mantissa takes neither of the ties at its sides. -/
theorem RoundsTo.half_lt (h : RoundsTo m e q) (hodd : m % 2 ≠ 0) :
    (m - 1 / 2 : ℚ) * 2 ^ e < q ∧ q < (m + 1 / 2 : ℚ) * 2 ^ e := by
  rcases h.tie with heven | ⟨hlow, hhigh⟩
  · exact absurd heven hodd
  · refine ⟨lt_of_le_of_lt ?_ hlow, hhigh⟩
    have hreach := reach_le m e
    gcongr

/-- On the grid of its own exponent a quotient is rounded to the mantissa. -/
theorem nearest_of_exponent (negative : Bool) {num den : Nat} (hden : 0 < den)
    (hm : Canonical m e) (h : RoundsTo m e (num / den))
    (hexponent : max leastExponent (binaryExponent num den - (mantissaBits - 1)) = e) :
    Binary.nearest negative num den = .finite negative m e := by
  have hround := roundQuotient_scaleBy hden h.half_le h.high
    ((Nat.eq_zero_or_pos (m % 2)).imp_right fun hpos => h.half_lt hpos.ne')
  unfold Binary.nearest
  simp only [Nat.pow_eq]
  rw [hexponent, hround, if_neg hm.lt.ne]
  dsimp only
  rw [if_neg hm.pos.ne', if_neg (not_lt.mpr hm.greatest)]

/-- Just below a power of two a quotient is rounded on a finer grid, and up to
the power. -/
theorem nearest_of_carry (negative : Bool) {num den : Nat} (hden : 0 < den)
    (hexponent : max leastExponent (binaryExponent num den - (mantissaBits - 1)) = e - 1)
    (hlow : (2 ^ 52 - 1 / 4 : ℚ) * 2 ^ e ≤ num / den) (hhigh : (num / den : ℚ) < 2 ^ 52 * 2 ^ e)
    (hgreatest : e ≤ greatestExponent) :
    Binary.nearest negative num den = .finite negative (2 ^ 52) e := by
  have hpow : (2 : ℚ) ^ e = 2 * 2 ^ (e - 1) := by
    rw [zpow_sub₀ (by norm_num : (2 : ℚ) ≠ 0)]
    ring
  have hpos : (0 : ℚ) < 2 ^ (e - 1) := by positivity
  have hround : roundQuotient .toEven (scaleBy 2 num den (-(e - 1))).1
      (scaleBy 2 num den (-(e - 1))).2 = 2 ^ mantissaBits := by
    rw [hpow] at hlow hhigh
    refine roundQuotient_scaleBy hden ?_ ?_ (.inl (by decide))
    · push_cast [mantissaBits]
      linarith
    · push_cast [mantissaBits]
      linarith
  unfold Binary.nearest
  simp only [Nat.pow_eq]
  rw [hexponent, hround, if_pos rfl]
  dsimp only
  rw [if_neg (by decide), Int.sub_add_cancel, if_neg (not_lt.mpr hgreatest)]
  rfl

/-- Every rational number that is rounded to a double has it as the nearest. -/
theorem nearest_eq (negative : Bool) {num den : Nat} (hden : 0 < den) (hm : Canonical m e)
    (h : RoundsTo m e (num / den)) :
    Binary.nearest negative num den = .finite negative m e := by
  have hden' : (0 : ℚ) < den := by exact_mod_cast hden
  have hnum : 0 < num := by
    have hpos := h.pos hm.pos
    rw [lt_div_iff₀ hden', zero_mul] at hpos
    exact_mod_cast hpos
  have hpow : (0 : ℚ) < 2 ^ e := by positivity
  have hsplit (k : ℤ) : (2 : ℚ) ^ (k + e) = 2 ^ k * 2 ^ e := zpow_add₀ (by norm_num) k e
  obtain ⟨hlow, hhigh⟩ := binaryExponent_spec hnum hden
  -- the quotient is below the next power of two, so the exponent is not above `e`
  have hbelow : (num / den : ℚ) < 2 ^ (53 + e) := by
    refine lt_of_le_of_lt h.high ?_
    rw [hsplit]
    have hlt : (m : ℚ) + 1 ≤ 2 ^ (53 : ℤ) := by exact_mod_cast hm.lt
    gcongr
    linarith
  have hle := (zpow_lt_zpow_iff_right₀ (by norm_num : (1 : ℚ) < 2)).mp (hlow.trans_lt hbelow)
  have hleast := hm.least
  by_cases hfull : (2 : ℚ) ^ (52 + e) ≤ num / den
  · have hge := (zpow_lt_zpow_iff_right₀ (by norm_num : (1 : ℚ) < 2)).mp (hfull.trans_lt hhigh)
    refine nearest_of_exponent negative hden hm h ?_
    simp only [mantissaBits]
    omega
  · rcases eq_or_lt_of_le hleast with heq | hlt
    · refine nearest_of_exponent negative hden hm h ?_
      simp only [mantissaBits]
      omega
    · -- only a power of two has quotients below it that are nearer to it than a unit
      rw [not_le, hsplit] at hfull
      have hmantissa : m = 2 ^ 52 := by
        have hge : 2 ^ 52 ≤ m := hm.full.resolve_right hlt.ne'
        have hlt' : (m - 1 / 2 : ℚ) < 2 ^ (52 : ℤ) :=
          lt_of_mul_lt_mul_right (lt_of_le_of_lt h.half_le hfull) hpow.le
        have hle' : m < 2 ^ 52 + 1 := by
          have hcast : (m : ℚ) < 2 ^ (52 : ℤ) + 1 := by linarith
          exact_mod_cast hcast
        omega
      subst hmantissa
      have hlow' : (2 ^ 52 - 1 / 4 : ℚ) * 2 ^ e ≤ num / den := by
        have hreach : reach (2 ^ 52) e = 1 := if_pos ⟨rfl, hlt⟩
        have hlow' := h.low
        rw [hreach] at hlow'
        exact_mod_cast hlow'
      have hge : (2 : ℚ) ^ (51 + e) ≤ num / den := by
        refine le_trans ?_ hlow'
        rw [hsplit]
        gcongr
        norm_num
      have hexponent := binaryExponent_eq hnum hden hge (by
        rw [show (51 : ℤ) + e + 1 = 52 + e by ring, hsplit]
        exact hfull)
      refine nearest_of_carry negative hden ?_ hlow' hfull hm.greatest
      rw [hexponent]
      simp only [mantissaBits]
      omega

end FormulaCalculator.Number
