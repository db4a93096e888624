import FormulaCalculator.Proofs.DoubleArithmetic
import FormulaCalculator.Proofs.NumberRoundTrip

/-!
# The values of doubles

A finite double has an exact value. Doubles without a sign are compared by it, and
the whole number that a double is cut to is the greatest one that is not above it.
-/

set_option autoImplicit false

namespace FormulaCalculator.Number

open Float.Model (UnpackedFloat Format)
open Float.Model.UnpackedFloat

/-- The exact value of a finite double. -/
def exactValue (x : Float) : ℚ :=
  match Binary.ofFloat x with
  | .finite negative m e => if negative then -(m * 2 ^ e) else m * 2 ^ e
  | _ => 0

variable {x y : Float} {negative : Bool} {m : Nat} {e : Int}

/-- The exact value of a double from its sign, mantissa and exponent. -/
theorem exactValue_eq (h : Binary.ofFloat x = .finite negative m e) :
    exactValue x = if negative then -(m * 2 ^ e : ℚ) else m * 2 ^ e := by
  rw [exactValue, h]

/-- The magnitude of a double is its mantissa times the power of two. -/
theorem abs_exactValue (h : Binary.ofFloat x = .finite negative m e) :
    |exactValue x| = m * 2 ^ e := by
  have hpos : (0 : ℚ) ≤ m * 2 ^ e := by positivity
  rw [exactValue_eq h]
  split
  · rw [abs_neg, abs_of_nonneg hpos]
  · exact abs_of_nonneg hpos

/-- The word of a finite double. -/
theorem unpack_of_ofFloat (h : Binary.ofFloat x = .finite negative m e) :
    (x.toModel.unpack = .zero (Binary.signOf negative) ∧ m = 0 ∧ e = 0) ∨
      ∃ hpos : 0 < m, x.toModel.unpack = .finite (Binary.signOf negative) m e hpos := by
  unfold Binary.ofFloat at h
  cases hu : x.toModel.unpack with
  | notANumber | infinity sign =>
    rw [hu] at h
    cases h
  | zero sign =>
    rw [hu] at h
    cases h
    exact .inl ⟨by rw [Binary.signOf_isMinus], rfl, rfl⟩
  | finite sign m' e' hpos =>
    rw [hu] at h
    cases h
    exact .inr ⟨hpos, by rw [Binary.signOf_isMinus]⟩

/-- A double with a mantissa and an exponent is finite. -/
theorem isFinite_of_ofFloat (h : Binary.ofFloat x = .finite negative m e) : x.isFinite = true := by
  rw [isFinite_eq]
  rcases unpack_of_ofFloat h with ⟨hu, -⟩ | ⟨hpos, hu⟩ <;> rw [hu] <;> rfl

/-- A double that is made from a full mantissa has this mantissa and exponent again. -/
theorem ofFloat_toFloat_of_canonical (h : Canonical m e) (hfull : 2 ^ 52 ≤ m) (negative : Bool) :
    Binary.ofFloat (Binary.toFloat (.finite negative m e)) = .finite negative m e := by
  unfold Binary.ofFloat
  rw [Binary.toFloat, dif_neg h.pos.ne', unpack_pack_of_canonical h hfull]
  simp only [Binary.isMinus_signOf]

/-- Whole numbers below 2⁵³ have their own value as doubles. -/
theorem exactValue_ofNat {n : Nat} (hpos : 0 < n) (hlt : n < 2 ^ 53) :
    exactValue (Float.ofNat n) = n := by
  have hn : Binary.ofFloat (Float.ofNat n) =
      .finite false (n * 2 ^ (52 - n.log2)) (-(52 - n.log2 : ℕ)) := by
    unfold Binary.ofFloat
    rw [unpack_ofNat hpos hlt]
    rfl
  rw [exactValue_eq hn, if_neg Bool.false_ne_true, Nat.cast_mul, Nat.cast_pow, Nat.cast_ofNat,
    zpow_neg, zpow_natCast, mul_assoc, mul_inv_cancel₀ (by positivity), mul_one]

/-- The magnitude of a double has the mantissa and the exponent of the double. -/
theorem unpack_abs (x : Float) : x.abs.toModel.unpack = x.toModel.unpack.abs := by
  have hsame : (Float.ofModel (.pack x.toModel.unpack)).toModel.unpack = x.toModel.unpack := by
    rw [Binary.ofModel_pack_unpack]
  have hopposite := unpack_neg x
  change (Float.ofModel (.pack x.toModel.unpack.abs)).toModel.unpack = _
  change (Float.ofModel (.pack x.toModel.unpack.neg)).toModel.unpack = _ at hopposite
  cases hu : x.toModel.unpack with
  | notANumber => rfl
  | infinity sign | zero sign | finite sign =>
    rw [hu] at hsame hopposite
    cases sign with
    | positive => exact hsame
    | negative => exact hopposite

/-- The magnitude of a finite double is the double without its sign. -/
theorem ofFloat_abs (h : Binary.ofFloat x = .finite negative m e) :
    Binary.ofFloat x.abs = .finite false m e := by
  unfold Binary.ofFloat
  rw [unpack_abs]
  rcases unpack_of_ofFloat h with ⟨hu, rfl, rfl⟩ | ⟨hpos, hu⟩
  · rw [hu]
    rfl
  · rw [hu]
    rfl

/-- The magnitude of a finite double has no sign. -/
theorem unsigned_abs (hfinite : x.isFinite = true) : Unsigned x.abs := by
  obtain ⟨negative, m, e, hx⟩ := exists_of_isFinite hfinite
  exact ⟨m, e, ofFloat_abs hx⟩

/-- The magnitude of a double has the magnitude of its value. -/
theorem exactValue_abs (hfinite : x.isFinite = true) : exactValue x.abs = |exactValue x| := by
  obtain ⟨negative, m, e, hx⟩ := exists_of_isFinite hfinite
  rw [abs_exactValue hx, exactValue_eq (ofFloat_abs hx)]
  rfl

/-- A magnitude as a quotient of whole numbers. -/
theorem scaleBy_two (m : Nat) (e : Int) : 0 < (scaleBy 2 m 1 e).2 ∧
    ((scaleBy 2 m 1 e).1 / (scaleBy 2 m 1 e).2 : ℚ) = m * 2 ^ e := by
  refine ⟨scaleBy_den_pos (by decide) (by decide) e, ?_⟩
  rw [scaleBy_div (by decide), Nat.cast_one, div_one, Nat.cast_ofNat]

/-! ## Comparing -/

/-- Of two mantissas that are as large as they can be, the one with the smaller
exponent stands for the smaller number. -/
theorem Canonical.lt_of_exponent_lt {n : Nat} {f : Int} (hm : Canonical m e) (hn : Canonical n f)
    (h : e < f) : (m * 2 ^ e : ℚ) < n * 2 ^ f := by
  have hfull : (2 ^ 52 : ℚ) ≤ n := by
    rcases hn.full with hfull | hleast
    · exact_mod_cast hfull
    · have := hm.least
      omega
  have hlt : (m : ℚ) < 2 ^ 53 := by exact_mod_cast hm.lt
  have hpow : (2 : ℚ) ^ f = 2 ^ (f - 1) * 2 := by
    rw [← zpow_add_one₀ (by norm_num), sub_add_cancel]
  calc (m * 2 ^ e : ℚ) < 2 ^ 53 * 2 ^ e := by gcongr
    _ ≤ 2 ^ 53 * 2 ^ (f - 1) := by
      gcongr
      · norm_num
      · omega
    _ = 2 ^ 52 * 2 ^ f := by rw [hpow]; ring
    _ ≤ n * 2 ^ f := by gcongr

/-- Canonical doubles compare by their exponents first and their mantissas then, and that
is the order of their values. -/
theorem Canonical.compare_eq_lt_iff {n : Nat} {f : Int} (hm : Canonical m e) (hn : Canonical n f) :
    (compare e f).then (compare m n) = .lt ↔ (m * 2 ^ e : ℚ) < n * 2 ^ f := by
  rcases lt_trichotomy e f with hlt | rfl | hgt
  · rw [compare_lt_iff_lt.mpr hlt]
    exact iff_of_true rfl (hm.lt_of_exponent_lt hn hlt)
  · have hpow : (0 : ℚ) < 2 ^ e := by positivity
    rw [compare_eq_iff_eq.mpr rfl, Ordering.eq_then, compare_lt_iff_lt,
      mul_lt_mul_iff_left₀ hpow, Nat.cast_lt]
  · rw [compare_gt_iff_gt.mpr hgt]
    exact iff_of_false nofun (hn.lt_of_exponent_lt hm hgt).not_gt

/-- Doubles are compared by what their words stand for. -/
theorem unpack_lt_iff : x < y ↔ UnpackedFloat.lt x.toModel.unpack y.toModel.unpack = true :=
  decide_eq_true_iff

/-- A double without a sign is zero or has a canonical mantissa. -/
theorem Unsigned.cases (h : Unsigned x) :
    (∃ sign, x.toModel.unpack = .zero sign ∧ exactValue x = 0) ∨
      ∃ m e, ∃ hm : Canonical m e, x.toModel.unpack = .finite .positive m e hm.pos ∧
        exactValue x = m * 2 ^ e := by
  obtain ⟨m, e, hx⟩ := h
  have hvalue := exactValue_eq hx
  rw [if_neg Bool.false_ne_true] at hvalue
  rcases unpack_of_ofFloat hx with ⟨hu, rfl, rfl⟩ | ⟨hpos, hu⟩
  · exact .inl ⟨_, hu, by simpa using hvalue⟩
  · have hm := (Binary.canonical_of_ofFloat hx).resolve_left fun h => hpos.ne' h.1
    exact .inr ⟨m, e, hm, hu, hvalue⟩

/-- Doubles without a sign are compared by their values. -/
theorem Unsigned.lt_iff (hx : Unsigned x) (hy : Unsigned y) :
    x < y ↔ exactValue x < exactValue y := by
  rw [unpack_lt_iff]
  rcases hx.cases with ⟨s, hx, hvalue⟩ | ⟨m, e, hm, hx, hvalue⟩ <;>
    rcases hy.cases with ⟨t, hy, hvalue'⟩ | ⟨n, f, hn, hy, hvalue'⟩ <;>
    rw [hx, hy, hvalue, hvalue']
  · exact iff_of_false nofun (lt_irrefl 0)
  · have hpos : (0 : ℚ) < n := by exact_mod_cast hn.pos
    exact iff_of_true rfl (by positivity)
  · have hpos : (0 : ℚ) < m := by exact_mod_cast hm.pos
    have hvalue : (0 : ℚ) < m * 2 ^ e := by positivity
    exact iff_of_false nofun hvalue.not_gt
  · rw [← hm.compare_eq_lt_iff hn, UnpackedFloat.lt, beq_iff_eq]
    exact Option.some_inj

/-! ## Cutting to a whole number -/

/-- Shifting divides and cuts. -/
theorem mantissa_shiftRight (em : ExtendedMantissa) (t : Nat) :
    (em >>> t).mantissa = em.mantissa / 2 ^ t := by
  have hrepeat (t : Nat) :
      (Nat.repeat ExtendedMantissa.shiftRightOne t em).mantissa = em.mantissa / 2 ^ t := by
    induction t with
    | zero => simp [Nat.repeat]
    | succ t ih =>
      rw [Nat.repeat, ExtendedMantissa.shiftRightOne, ih, Nat.div_div_eq_div_mul, ← pow_succ]
  exact hrepeat t

/-- To round a double toward zero is to divide its exact fraction with remainder. -/
theorem roundToInt_eq (sign : Sign) (m : Nat) (e : Int) : roundToInt sign m e =
    sign.apply ((scaleBy 2 m 1 e).1 / (scaleBy 2 m 1 e).2 : Nat) := by
  have hamount : (0 - (e - (e.toNat : Int))).toNat = (-e).toNat := by omega
  unfold roundToInt shiftToExponent decreaseExponent
  simp only [mantissa_shiftRight, ExtendedMantissa.ofMantissaAndAccuracy, Nat.shiftLeft_eq,
    scaleBy, Nat.pow_eq, Nat.one_mul, sub_zero, hamount]

/-- A whole number is at most the quotient exactly if it is at most the value. -/
theorem le_scaleBy_div_iff {n : Nat} :
    n ≤ (scaleBy 2 m 1 e).1 / (scaleBy 2 m 1 e).2 ↔ (n : ℚ) ≤ m * 2 ^ e := by
  obtain ⟨hden, hvalue⟩ := scaleBy_two m e
  rw [← hvalue, Nat.le_div_iff_mul_le hden, le_div_iff₀ (by exact_mod_cast hden)]
  exact_mod_cast Iff.rfl

/-- The conversion to a word of 64 bits stops at the ends of its range. -/
theorem toNat_toUInt64 (x : Float) : x.toUInt64.toNat =
    min (UnpackedFloat.toInt 0 (UInt64.size - 1) x.toModel.unpack).toNat (2 ^ 64 - 1) := by
  change (UInt64.ofNatClamp _).toNat = _
  generalize (UnpackedFloat.toInt 0 (UInt64.size - 1) x.toModel.unpack).toNat = k
  rw [UInt64.ofNatClamp]
  split
  · next h =>
    have hsize : k < 2 ^ 64 := h
    rw [UInt64.toNat_ofNatLT]
    omega
  · next h =>
    have hsize : ¬k < 2 ^ 64 := h
    change 2 ^ 64 - 1 = _
    omega

/-- A finite double is cut to the greatest whole number that is not above it. -/
theorem le_toUInt64_iff {n : Nat} (hfinite : x.isFinite = true) (hpos : 0 < n) (hlt : n < 2 ^ 64) :
    n ≤ x.toUInt64.toNat ↔ (n : ℚ) ≤ exactValue x := by
  obtain ⟨negative, m, e, hx⟩ := exists_of_isFinite hfinite
  have hvalue := exactValue_eq hx
  have hpos' : (0 : ℚ) < n := by exact_mod_cast hpos
  have hnonneg : (0 : ℚ) ≤ m * 2 ^ e := by positivity
  have hcut : n ≤ x.toUInt64.toNat ↔
      n ≤ (UnpackedFloat.toInt 0 (UInt64.size - 1) x.toModel.unpack).toNat := by
    rw [toNat_toUInt64]
    omega
  rw [hcut, hvalue]
  rcases unpack_of_ofFloat hx with ⟨hu, rfl, rfl⟩ | ⟨hm, hu⟩
  · rw [hu]
    refine iff_of_false (Nat.not_le.mpr hpos) (not_le.mpr ?_)
    simpa using hpos
  · rw [hu, UnpackedFloat.toInt, roundToInt_eq]
    cases negative with
    | true =>
      refine iff_of_false (Nat.not_le.mpr ?_) (not_le.mpr ?_)
      · rw [Binary.signOf, if_pos rfl, Sign.apply, Int.toNat_neg_natCast]
        exact hpos
      · exact (neg_nonpos.mpr hnonneg).trans_lt hpos'
    | false =>
      rw [Binary.signOf, if_neg Bool.false_ne_true, Sign.apply, Int.toNat_natCast]
      exact le_scaleBy_div_iff

end FormulaCalculator.Number
