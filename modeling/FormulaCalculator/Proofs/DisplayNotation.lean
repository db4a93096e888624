import FormulaCalculator.Proofs.RealRounding
import FormulaCalculator.Proofs.TrimmedDecimals

/-!
# When a display shows a power of ten

A display counts the digits of the whole part by a logarithm in doubles. If the
logarithm is correctly rounded, it reaches a whole number from half a gap before it
on. So the numbers just below a power of ten, whose logarithm is rounded up to it,
are counted with one digit more than they have; all others are counted right.
-/

set_option autoImplicit false

namespace FormulaCalculator.Number

variable {x : Float} {display : Display} {log10 : Float → Float} {negative : Bool} {m n : Nat}
  {e : Int}

/-- The logarithm in doubles is correctly rounded at the magnitude of the double. -/
def RoundsLogarithm (log10 : Float → Float) (x : Float) : Prop :=
  exactValue x ≠ 0 → IsNearest (log10 x.abs) (Real.logb 10 |(exactValue x : ℝ)|)

/-! ## Powers of ten close to one -/

/-- Rough bounds of the natural logarithm of ten, which are all that the estimates below
need. -/
theorem log_ten_bounds : 2 ≤ Real.log 10 ∧ Real.log 10 ≤ 3 := by
  have hlow := Real.log_two_gt_d9
  have hhigh := Real.log_two_lt_d9
  have height : Real.log 8 = 3 * Real.log 2 := by
    rw [show (8 : ℝ) = 2 ^ 3 by norm_num, Real.log_pow]
    norm_num
  have hsixteen : Real.log 16 = 4 * Real.log 2 := by
    rw [show (16 : ℝ) = 2 ^ 4 by norm_num, Real.log_pow]
    norm_num
  have hle : Real.log 8 ≤ Real.log 10 := Real.log_le_log (by norm_num) (by norm_num)
  have hge : Real.log 10 ≤ Real.log 16 := Real.log_le_log (by norm_num) (by norm_num)
  constructor <;> linarith

/-- A power of ten with a small negative exponent is not far below one. -/
theorem one_sub_le_ten_rpow_neg {s : ℝ} (hs : 0 ≤ s) : 1 - 3 * s ≤ (10 : ℝ) ^ (-s) := by
  have hlog := log_ten_bounds.2
  calc 1 - 3 * s ≤ Real.log 10 * -s + 1 := by nlinarith
    _ ≤ Real.exp (Real.log 10 * -s) := Real.add_one_le_exp _
    _ = (10 : ℝ) ^ (-s) := (Real.rpow_def_of_pos (by norm_num) _).symm

/-- A power of ten with a negative exponent is below one by a part of the exponent at
least. -/
theorem ten_rpow_neg_le {s : ℝ} (hs : 0 ≤ s) : (10 : ℝ) ^ (-s) ≤ (1 + 2 * s)⁻¹ := by
  have hlog := log_ten_bounds.1
  rw [Real.rpow_neg (by norm_num)]
  refine inv_anti₀ (by linarith) ?_
  calc 1 + 2 * s ≤ Real.log 10 * s + 1 := by nlinarith
    _ ≤ Real.exp (Real.log 10 * s) := Real.add_one_le_exp _
    _ = (10 : ℝ) ^ s := (Real.rpow_def_of_pos (by norm_num) _).symm

/-- A power of ten with an exponent just below a whole number is a whole power, made a
little smaller. -/
theorem ten_rpow_sub (n : Nat) (s : ℝ) : (10 : ℝ) ^ (n - s : ℝ) = 10 ^ n * 10 ^ (-s) := by
  rw [sub_eq_add_neg, Real.rpow_add (by norm_num), Real.rpow_natCast]

/-- The power of ten with the exponent zero is one, without a rounding. -/
theorem powerOfTen_zero : powerOfTen 0 = 1 := by
  simp [powerOfTen, powerBySquaring]

/-! ## Counting the digits of the whole part -/

/-- The double one is exactly one. -/
theorem exactValue_one : exactValue 1 = 1 := by
  have := @exactValue_ofNat 1 (by decide) (by decide)
  exact_mod_cast this

/-- Doubles are below one in magnitude exactly if their values are. -/
theorem abs_lt_one_iff (hfinite : x.isFinite = true) : x.abs < 1 ↔ |exactValue x| < 1 := by
  have hone : Unsigned 1 := ⟨2 ^ 52, -52, by decide⟩
  rw [(unsigned_abs hfinite).lt_iff hone, exactValue_abs hfinite, exactValue_one]

/-- All doubles are below the 309th power of ten. -/
theorem abs_exactValue_lt (hfinite : x.isFinite = true) : |exactValue x| < 10 ^ 309 := by
  obtain ⟨negative, m, e, hx⟩ := exists_of_isFinite hfinite
  rw [abs_exactValue hx]
  rcases Binary.canonical_of_ofFloat hx with ⟨rfl, rfl⟩ | hm
  · norm_num
  · have hlt : (m : ℚ) < 2 ^ 53 := by exact_mod_cast hm.lt
    calc (m * 2 ^ e : ℚ) < 2 ^ 53 * 2 ^ e := by gcongr
      _ ≤ 2 ^ 53 * 2 ^ (971 : ℤ) := by
        gcongr
        · norm_num
        · exact hm.greatest
      _ = 2 * (2 ^ 93) ^ 11 := by rw [zpow_ofNat, ← pow_mul, ← pow_succ', ← pow_add]
      _ < 10 * (10 ^ 28) ^ 11 := by
        gcongr
        · norm_num
        · norm_num
      _ = 10 ^ 309 := by rw [← pow_mul, ← pow_succ']

/-- The gap below a whole number is at most its 2⁵²-th part, for a double has 53 bits. -/
theorem gapBefore_mul_le (hpos : 0 < n) : gapBefore n * 2 ^ 52 ≤ n := by
  have hlt : (2 ^ Nat.clog 2 n : ℚ) ≤ 2 * n := by exact_mod_cast (two_pow_clog_lt hpos).le
  have hsplit : (2 : ℚ) ^ Nat.clog 2 n = gapBefore n * 2 ^ 53 := by
    rw [gapBefore, ← zpow_natCast, ← zpow_natCast, ← zpow_add₀ (by norm_num)]
    congr 1
    omega
  linarith

/-- A number is counted as one of more than `n` digits from half a gap below `n` on in the
logarithm, since from there on the logarithm is rounded up to `n`. -/
theorem lt_wholeDigitsOf_iff (hn : 0 < n) (hfinite : x.isFinite = true)
    (hne : exactValue x ≠ 0) (hlog : RoundsLogarithm log10 x) :
    n < Display.wholeDigitsOf log10 x.abs ↔
      (10 : ℝ) ^ (n - gapBefore n / 2 : ℝ) ≤ |(exactValue x : ℝ)| := by
  have hlog := hlog hne
  have hgap {n : Nat} (hn : 0 < n) : (gapBefore n * 2 ^ 52 : ℝ) ≤ n := by
    exact_mod_cast gapBefore_mul_le hn
  have hn' : (1 : ℝ) ≤ n := by exact_mod_cast hn
  unfold Display.wholeDigitsOf
  split
  · next hsmall =>
    have hlt : |(exactValue x : ℝ)| < 1 := by exact_mod_cast (abs_lt_one_iff hfinite).mp hsmall
    have hge : (1 : ℝ) ≤ 10 ^ (n - gapBefore n / 2 : ℝ) :=
      Real.one_le_rpow (by norm_num) (by linarith [hgap hn])
    exact iff_of_false (by omega) (not_le.mpr (hlt.trans_le hge))
  · next hlarge =>
    rw [abs_lt_one_iff hfinite, not_lt] at hlarge
    have hpos : (0 : ℝ) < |(exactValue x : ℝ)| := abs_pos.mpr (by exact_mod_cast hne)
    rw [← Real.le_logb_iff_rpow_le (by norm_num) hpos, Nat.lt_succ_iff]
    have hcount {n : Nat} (hn : 0 < n) (hle : n ≤ 2 ^ 52) :
        n ≤ (log10 x.abs).toUInt64.toNat ↔
          (n - gapBefore n / 2 : ℝ) ≤ Real.logb 10 |(exactValue x : ℝ)| := by
      rw [le_toUInt64_iff hlog.finite hn (by omega), hlog.natCast_le_iff hn hle]
    rcases Nat.lt_or_ge n 310 with hlt | hge
    · exact hcount hn (by omega)
    · -- No double has so many digits, and the logarithm in doubles does not reach them.
      have hbound : Real.logb 10 |(exactValue x : ℝ)| < 309 := by
        rw [Real.logb_lt_iff_lt_rpow (by norm_num) hpos]
        exact_mod_cast abs_exactValue_lt hfinite
      have hbelow {n : Nat} (hge : 310 ≤ n) :
          ¬(n - gapBefore n / 2 : ℝ) ≤ Real.logb 10 |(exactValue x : ℝ)| := by
        have hge : (310 : ℝ) ≤ n := by exact_mod_cast hge
        have hgap := @hgap n (by omega)
        rw [not_le]
        linarith
      refine iff_of_false (fun h => ?_) (hbelow hge)
      exact hbelow (Nat.le_refl 310) ((hcount (by decide) (by decide)).mp (hge.trans h))

/-! ## The notation of the text -/

namespace Display

/-- A finite double is shown in one of the two notations, from its exact value as a
fraction. -/
theorem textOf_finite (h : Binary.ofFloat x = .finite negative m e) :
    display.textOf log10 x =
      if display.isScientific log10 x.abs then
        display.scientific negative (scaleBy 2 m 1 e).1 (scaleBy 2 m 1 e).2
      else display.plain negative (scaleBy 2 m 1 e).1 (scaleBy 2 m 1 e).2 := by
  rw [textOf, h]

/-- The plain notation has no mark of an exponent. -/
theorem not_mem_plain (num den : Nat) : 'E' ∉ display.plain negative num den := by
  unfold plain signed
  dsimp only
  have hnumber := @not_mem_trimDecimals_placePoint 'E' rfl (by decide)
    (roundQuotient .toEven (num * Nat.pow 10 display.decimals) den) display.decimals
  split
  · exact List.not_mem_cons_of_ne_of_not_mem (by decide) hnumber
  · exact hnumber

/-- The scientific notation has a mark of an exponent. -/
theorem mem_scientific (num den : Nat) : 'E' ∈ display.scientific negative num den := by
  unfold scientific
  exact List.mem_append_right _ List.mem_cons_self

/-- The notation of a text can be told from the mark of an exponent in it. -/
theorem mem_textOf_iff_isScientific (hfinite : x.isFinite = true) :
    'E' ∈ display.textOf log10 x ↔ display.isScientific log10 x.abs = true := by
  obtain ⟨negative, m, e, hx⟩ := exists_of_isFinite hfinite
  rw [textOf_finite hx]
  split
  · next h => exact iff_of_true (mem_scientific _ _) h
  · next h => exact iff_of_false (not_mem_plain _ _) h

/-- A number other than zero is shown in scientific notation if it has too many digits
before the point or is below the threshold. -/
theorem isScientific_iff (hfinite : x.isFinite = true) (hne : exactValue x ≠ 0) :
    display.isScientific log10 x.abs = true ↔
      display.wholeDigits < wholeDigitsOf log10 x.abs ∨
        x.abs < powerOfTen (-display.threshold).toInt := by
  have hnonzero : (x.abs != 0) = true := by
    rw [bne, Bool.not_eq_true', Bool.eq_false_iff]
    intro hzero
    obtain ⟨sign, hu⟩ := beq_zero_iff.mp hzero
    have hvalue : exactValue x.abs = 0 := by
      unfold exactValue Binary.ofFloat
      rw [hu]
      simp
    rw [exactValue_abs hfinite, abs_eq_zero] at hvalue
    exact hne hvalue
  simp only [isScientific, hnonzero, Bool.true_and, Bool.or_eq_true, decide_eq_true_eq]

/-- The power of ten whose exponent is half a gap smaller is a little smaller. -/
theorem ten_rpow_sub_gapBefore (n : Nat) :
    (10 ^ n * (1 - 2 * gapBefore n) : ℝ) ≤ 10 ^ (n - gapBefore n / 2 : ℝ) ∧
      (10 : ℝ) ^ (n - gapBefore n / 2 : ℝ) ≤ 10 ^ n := by
  have hgap : (0 : ℝ) < gapBefore n := by exact_mod_cast gapBefore_pos n
  have hlow := @one_sub_le_ten_rpow_neg (gapBefore n / 2) (by positivity)
  constructor
  · rw [ten_rpow_sub]
    gcongr
    linarith
  · rw [← Real.rpow_natCast]
    gcongr
    · norm_num
    · linarith

/-- The condition for scientific notation, with the count of digits replaced by the power
of ten from which on it is exceeded. -/
theorem mem_textOf_iff_ten_rpow_le (hwhole : 1 ≤ display.wholeDigits)
    (hfinite : x.isFinite = true) (hne : exactValue x ≠ 0) (hlog : RoundsLogarithm log10 x) :
    'E' ∈ display.textOf log10 x ↔
      (10 : ℝ) ^ (display.wholeDigits - gapBefore display.wholeDigits / 2 : ℝ) ≤
          |(exactValue x : ℝ)| ∨
        x.abs < powerOfTen (-display.threshold).toInt := by
  rw [mem_textOf_iff_isScientific hfinite, isScientific_iff hfinite hne,
    lt_wholeDigitsOf_iff hwhole hfinite hne hlog]

/-- The whole part of a number that is shown plainly is below the power of ten that
would need more digits. -/
theorem abs_lt_of_not_mem (hwhole : 1 ≤ display.wholeDigits) (hfinite : x.isFinite = true)
    (hlog : RoundsLogarithm log10 x) (hplain : 'E' ∉ display.textOf log10 x) :
    |exactValue x| < 10 ^ display.wholeDigits := by
  by_cases hzero : exactValue x = 0
  · rw [hzero, abs_zero]
    positivity
  · rw [mem_textOf_iff_ten_rpow_le hwhole hfinite hzero hlog, not_or, not_le] at hplain
    have hlt : |(exactValue x : ℝ)| < 10 ^ display.wholeDigits :=
      hplain.1.trans_le (ten_rpow_sub_gapBefore display.wholeDigits).2
    exact_mod_cast hlt

/-- A number other than zero is shown with a power of ten exactly if it is below the
threshold or its logarithm is rounded to the number of digits or above. Apart from
the numbers just below that power of ten, whose logarithm is rounded up to it, these
are the numbers whose whole part has too many digits. -/
theorem mem_textOf_iff (hwhole : 1 ≤ display.wholeDigits) (hfinite : x.isFinite = true)
    (hne : exactValue x ≠ 0) (hlog : RoundsLogarithm log10 x) :
    ('E' ∈ display.textOf log10 x ↔
      (10 : ℝ) ^ (display.wholeDigits - gapBefore display.wholeDigits / 2 : ℝ) ≤
          |(exactValue x : ℝ)| ∨
        x.abs < powerOfTen (-display.threshold).toInt) ∧
    (|exactValue x| < 10 ^ display.wholeDigits * (1 - 2 * gapBefore display.wholeDigits) ∨
        10 ^ display.wholeDigits ≤ |exactValue x| →
      ('E' ∈ display.textOf log10 x ↔
        10 ^ display.wholeDigits ≤ |exactValue x| ∨
          x.abs < powerOfTen (-display.threshold).toInt)) := by
  have hiff := @mem_textOf_iff_ten_rpow_le x display log10 hwhole hfinite hne hlog
  refine ⟨hiff, fun hband => ?_⟩
  rw [hiff]
  refine or_congr_left ?_
  obtain ⟨hlow, hhigh⟩ := ten_rpow_sub_gapBefore display.wholeDigits
  rcases hband with hbelow | habove
  · have hgap := gapBefore_pos display.wholeDigits
    have hpow : (0 : ℚ) < 10 ^ display.wholeDigits := by positivity
    have hbelow' : |(exactValue x : ℝ)| <
        10 ^ display.wholeDigits * (1 - 2 * gapBefore display.wholeDigits) := by
      exact_mod_cast hbelow
    exact iff_of_false (hbelow'.trans_le hlow).not_ge (by nlinarith)
  · have habove' : (10 ^ display.wholeDigits : ℝ) ≤ |(exactValue x : ℝ)| := by
      exact_mod_cast habove
    exact iff_of_true (hhigh.trans habove') habove

/-- The double before a hundred. -/
def belowHundred : Float := Binary.toFloat (.finite false (100 * 2 ^ 46 - 1) (-46))

/-- A display of one digit and two decimals that shows all numbers from one on plainly
if they fit. -/
def oneDigit : Display := ⟨1, 2, 0⟩

/-- The same with two digits. -/
def twoDigits : Display := ⟨2, 2, 0⟩

/-- The double before a hundred has all bits of its mantissa in use, so it is read back as
it was made. -/
theorem ofFloat_belowHundred :
    Binary.ofFloat belowHundred = .finite false (100 * 2 ^ 46 - 1) (-46) :=
  ofFloat_toFloat_of_canonical ⟨by decide, by decide, by decide, by decide, .inl (by decide)⟩
    (by decide) false

/-- It is below a hundred by one unit of its last place. -/
theorem exactValue_belowHundred : exactValue belowHundred = 100 - 1 / 2 ^ 46 := by
  rw [exactValue_eq ofFloat_belowHundred]
  norm_num

/-- Half a gap below two the power of ten is still below the double. -/
theorem ten_rpow_lt_belowHundred :
    (10 : ℝ) ^ ((2 : ℕ) - gapBefore 2 / 2 : ℝ) < |(exactValue belowHundred : ℝ)| := by
  have hgap : gapBefore 2 = 1 / 2 ^ 52 := by
    have hclog : Nat.clog 2 2 = 1 := by decide
    rw [gapBefore, hclog]
    norm_num
  have hle := @ten_rpow_neg_le (gapBefore 2 / 2) (by rw [hgap]; positivity)
  rw [ten_rpow_sub, exactValue_belowHundred]
  calc (10 ^ 2 * 10 ^ (-(gapBefore 2 / 2) : ℝ) : ℝ)
      ≤ 10 ^ 2 * (1 + 2 * ((gapBefore 2 : ℝ) / 2))⁻¹ := by gcongr
    _ < 100 - 1 / 2 ^ 46 := by
      rw [hgap]
      norm_num
    _ ≤ |((100 - 1 / 2 ^ 46 : ℚ) : ℝ)| := by
      push_cast
      exact le_abs_self _

/-- Its logarithm in doubles is rounded to two. -/
theorem roundsLogarithm_belowHundred : RoundsLogarithm (fun _ => 2) belowHundred := by
  have hpos : 0 < |(exactValue belowHundred : ℝ)| :=
    (by positivity : (0 : ℝ) < _).trans ten_rpow_lt_belowHundred
  intro _
  refine @isNearest_ofNat 2 _ (by decide) (by decide) ?_ ?_
  · rw [Real.lt_logb_iff_rpow_lt (by norm_num) hpos]
    exact ten_rpow_lt_belowHundred
  · rw [Real.logb_lt_iff_lt_rpow (by norm_num) hpos, exactValue_belowHundred]
    push_cast
    rw [abs_of_pos (by norm_num)]
    norm_num

/-- The logarithm of the double before a hundred is rounded to two, and so the
double is shown as if it had three digits. For a display of one digit it has too
many in any case. -/
theorem mem_textOf_iff_belowHundred :
    (1 ≤ twoDigits.wholeDigits ∧ belowHundred.isFinite = true ∧ exactValue belowHundred ≠ 0 ∧
        RoundsLogarithm (fun _ => 2) belowHundred) ∧
      |exactValue belowHundred| < 10 ^ twoDigits.wholeDigits ∧
      ¬belowHundred.abs < powerOfTen (-twoDigits.threshold).toInt ∧
      'E' ∈ twoDigits.textOf (fun _ => 2) belowHundred ∧
      10 ^ oneDigit.wholeDigits ≤ |exactValue belowHundred| ∧
      'E' ∈ oneDigit.textOf (fun _ => 2) belowHundred := by
  have hwhole : 1 ≤ twoDigits.wholeDigits := by decide
  have hfinite := isFinite_of_ofFloat ofFloat_belowHundred
  have hvalue : |exactValue belowHundred| = 100 - 1 / 2 ^ 46 := by
    rw [exactValue_belowHundred, abs_of_pos (by norm_num)]
  have hne : exactValue belowHundred ≠ 0 := by
    rw [← abs_pos, hvalue]
    norm_num
  have hbelow : |exactValue belowHundred| < 10 ^ twoDigits.wholeDigits := by
    rw [hvalue]
    norm_num [twoDigits]
  have hnotTiny : ¬belowHundred.abs < powerOfTen (-twoDigits.threshold).toInt := by
    have hexponent : (-twoDigits.threshold).toInt = 0 := by decide
    rw [hexponent, powerOfTen_zero, abs_lt_one_iff hfinite, hvalue]
    norm_num
  have htwo : 'E' ∈ twoDigits.textOf (fun _ => 2) belowHundred :=
    (mem_textOf_iff hwhole hfinite hne roundsLogarithm_belowHundred).1.mpr
      (.inl ten_rpow_lt_belowHundred.le)
  have habove : 10 ^ oneDigit.wholeDigits ≤ |exactValue belowHundred| := by
    rw [hvalue]
    norm_num [oneDigit]
  have hone : 'E' ∈ oneDigit.textOf (fun _ => 2) belowHundred :=
    ((@mem_textOf_iff belowHundred oneDigit _ (by decide) hfinite hne
      roundsLogarithm_belowHundred).2 (.inr habove)).mpr (.inl habove)
  exact ⟨⟨hwhole, hfinite, hne, roundsLogarithm_belowHundred⟩, hbelow, hnotTiny, htwo, habove, hone⟩

end Display

end FormulaCalculator.Number
