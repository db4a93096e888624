import FormulaCalculator.Proofs.FloatBits

/-!
# Sums and products of doubles

What is true of every sum and every product of doubles where a factor or a term is
a zero or no number, and where nothing has to be rounded. A zero is taken without
its sign. The whole numbers below `2 ^ 53` are doubles, and taking one from such a
number gives the one before it.
-/

set_option autoImplicit false

namespace FormulaCalculator.Number

open Float.Model (UnpackedFloat Format totalExponent)
open Float.Model.UnpackedFloat

section Rounding

variable {m : Nat} {e : Int}

/-- Shifting drops the zeros at the end and marks nothing as lost. -/
theorem shiftRight_mul_two_pow (m t : Nat) :
    (⟨m * 2 ^ t, false, false⟩ : ExtendedMantissa) >>> t = ⟨m, false, false⟩ := by
  have hstep (n : Nat) : (⟨m * 2 ^ (n + t), false, false⟩ : ExtendedMantissa) >>> t =
      ⟨m * 2 ^ n, false, false⟩ := by
    induction t generalizing n with
    | zero => rfl
    | succ t ih =>
      have hone : ExtendedMantissa.shiftRightOne ⟨m * 2 ^ (n + 1), false, false⟩ =
          ⟨m * 2 ^ n, false, false⟩ := by
        have hdouble : m * 2 ^ (n + 1) = 2 * (m * 2 ^ n) := by ring
        simp [ExtendedMantissa.shiftRightOne, hdouble]
      have hnext := ih (n + 1)
      rw [show n + 1 + t = n + (t + 1) by omega] at hnext
      rw [← hone, ← hnext]
      rfl
  simpa using hstep 0

/-- Zeros behind the bits of a number make its logarithm larger by as many. -/
theorem log2_mul_two_pow {m : Nat} (hm : 0 < m) (t : Nat) : (m * 2 ^ t).log2 = m.log2 + t := by
  obtain ⟨hlow, hhigh⟩ := (Nat.log2_eq_iff hm.ne').mp rfl
  have hpow : 0 < 2 ^ t := by positivity
  refine (Nat.log2_eq_iff (by positivity)).mpr ⟨?_, ?_⟩
  · rw [pow_add]
    gcongr
  · rw [show m.log2 + t + 1 = m.log2 + 1 + t by omega, pow_add _ (m.log2 + 1)]
    gcongr

/-- Zeros behind the mantissa and the smaller exponent that goes with them leave the
magnitude as it is. -/
theorem totalExponent_mul_two_pow (hm : 0 < m) (e : Int) (t : Nat) :
    totalExponent (m * 2 ^ t) (e - t) = totalExponent m e := by
  simp only [totalExponent, log2_mul_two_pow hm]
  omega

/-- A finite double has the exponent that the format has for its value. -/
theorem targetExponent_of_canonical (h : Canonical m e) :
    Format.binary64.targetExponent (totalExponent m e) = e := by
  have hmin : Format.binary64.minExponent = -1074 := by decide
  have hbits : (Format.binary64.mantissaBits : Int) = 53 := rfl
  have hleast := h.least
  have hlt : m.log2 < 53 := (Nat.log2_lt h.pos.ne').mpr h.lt
  simp only [Format.targetExponent, totalExponent, hmin, hbits]
  simp only [leastExponent] at hleast
  rcases h.full with hfull | rfl
  · have hge : 52 ≤ m.log2 := (Nat.le_log2 h.pos.ne').mpr hfull
    omega
  · simp only [leastExponent]
    omega

/-- The zeros behind a canonical mantissa are shifted out again, and no bit is lost. -/
theorem shiftToTargetExponent_of_canonical (h : Canonical m e) (t : Nat) :
    shiftToTargetExponent Format.binary64 (m * 2 ^ t) (e - t) .exact =
      (⟨m, false, false⟩, e) := by
  have hamount : (e - (e - t)).toNat = t := by omega
  simp only [shiftToTargetExponent, shiftToExponent, totalExponent_mul_two_pow h.pos,
    targetExponent_of_canonical h, hamount, ExtendedMantissa.ofMantissaAndAccuracy,
    shiftRight_mul_two_pow, sub_add_cancel]

/-- Rounding only drops zeros where the value is that of a double. -/
theorem roundWithAccuracy_of_canonical (h : Canonical m e) (sign : Sign) (t : Nat) :
    roundWithAccuracy Format.binary64 sign (m * 2 ^ t) (e - t) .exact = .finite sign m e h.pos := by
  have hstay : shiftToTargetExponent Format.binary64 m e .exact = (⟨m, false, false⟩, e) := by
    simpa using shiftToTargetExponent_of_canonical h 0
  unfold roundWithAccuracy
  simp only [shiftToTargetExponent_of_canonical h, ExtendedMantissa.roundedMantissa,
    ExtendedMantissa.accuracy, Accuracy.roundToNearestEven, hstay, h.pos.ne', dite_false]

/-- A canonical mantissa with zeros behind it is rounded to itself. -/
theorem round_of_canonical (h : Canonical m e) (sign : Sign) (t : Nat) :
    UnpackedFloat.round Format.binary64 sign (m * 2 ^ t) (e - t) = .finite sign m e h.pos := by
  have hamount : (e - t - e).toNat = 0 := by omega
  unfold UnpackedFloat.round
  simp only [totalExponent_mul_two_pow h.pos, targetExponent_of_canonical h, decreaseExponent,
    hamount, Nat.shiftLeft_zero, Nat.cast_zero, sub_zero]
  exact roundWithAccuracy_of_canonical h sign t

/-- Rounding only appends zeros where the mantissa of the double is longer. -/
theorem round_of_canonical_mul {d : Nat} (h : Canonical (m * 2 ^ d) e) (sign : Sign) :
    UnpackedFloat.round Format.binary64 sign m (e + d) = .finite sign (m * 2 ^ d) e h.pos := by
  have hm : 0 < m := Nat.pos_of_mul_pos_right h.pos
  have htarget : Format.binary64.targetExponent (totalExponent m (e + d)) = e := by
    rw [← totalExponent_mul_two_pow hm (e + d) d, add_sub_cancel_right]
    exact targetExponent_of_canonical h
  have hround := roundWithAccuracy_of_canonical h sign 0
  rw [pow_zero, Nat.mul_one, Nat.cast_zero, sub_zero] at hround
  have hamount : (e + d - e).toNat = d := by omega
  unfold UnpackedFloat.round
  simp only [htarget, decreaseExponent, hamount, Nat.shiftLeft_eq, add_sub_cancel_right]
  exact hround

end Rounding

section Special

/-! Packing a zero, an infinity or what is no number loses nothing. -/

/-- What is no number survives being packed into a word. -/
theorem unpack_pack_notANumber :
    (Float.ofModel (.pack .notANumber)).toModel.unpack = .notANumber := rfl

/-- An infinity survives being packed into a word. -/
theorem unpack_pack_infinity (sign : Sign) :
    (Float.ofModel (.pack (.infinity sign))).toModel.unpack = .infinity sign := by
  cases sign <;> rfl

/-- A zero survives being packed into a word, with its sign. -/
theorem unpack_pack_zero (sign : Sign) :
    (Float.ofModel (.pack (.zero sign))).toModel.unpack = .zero sign := by
  cases sign <;> rfl

/-- The literal zero is the positive zero. -/
theorem unpack_zero : (0 : Float).toModel.unpack = .zero .positive := rfl

/-- The literal one, with its mantissa and exponent. -/
theorem unpack_one :
    (1 : Float).toModel.unpack = .finite .positive (2 ^ 52) (-52) (by decide) := rfl

end Special

section Zeros

variable {x y z : Float}

/-- A double equals zero if it is one of the two zeros. -/
theorem beq_zero_iff : (x == 0) = true ↔ ∃ sign, x.toModel.unpack = .zero sign := by
  change UnpackedFloat.beq x.toModel.unpack (0 : Float).toModel.unpack = true ↔ _
  rw [unpack_zero]
  cases x.toModel.unpack with
  | notANumber | zero sign => simp [UnpackedFloat.beq, UnpackedFloat.compare]
  | infinity sign | finite sign => cases sign <;> simp [UnpackedFloat.beq, UnpackedFloat.compare]

/-- Zero equals itself as a double. -/
theorem zero_beq_zero : ((0 : Float) == 0) = true := beq_zero_iff.mpr ⟨_, unpack_zero⟩

/-- A double is no number if its word stands for that. -/
theorem isNaN_iff_unpack : x.isNaN = true ↔ x.toModel.unpack = .notANumber := by
  change UnpackedFloat.isNaN x.toModel.unpack = true ↔ _
  cases x.toModel.unpack <;> simp [UnpackedFloat.isNaN]

/-- Whether a double is finite can be told from what its word stands for. -/
theorem isFinite_eq (x : Float) : x.isFinite = UnpackedFloat.isFinite x.toModel.unpack := rfl

/-- Both zeros are finite. -/
theorem isFinite_of_beq_zero (h : (x == 0) = true) : x.isFinite = true := by
  obtain ⟨sign, hx⟩ := beq_zero_iff.mp h
  rw [isFinite_eq, hx]
  rfl

/-- What is no number is not finite either. -/
theorem isFinite_eq_false_of_isNaN (h : x.isNaN = true) : x.isFinite = false := by
  rw [isFinite_eq, isNaN_iff_unpack.mp h]
  rfl

/-- A finite double is a number. -/
theorem not_isNaN_of_isFinite (h : x.isFinite = true) : ¬x.isNaN = true := by
  intro hnan
  rw [isFinite_eq_false_of_isNaN hnan] at h
  cases h

/-- There is one double that is no number. -/
theorem eq_of_isNaN (hx : x.isNaN = true) (hy : y.isNaN = true) : x = y := by
  apply Binary.ofFloat_injective
  unfold Binary.ofFloat
  rw [isNaN_iff_unpack.mp hx, isNaN_iff_unpack.mp hy]

/-- What a product or a sum stands for, where it is known without rounding. -/
theorem unpack_mul (x y : Float) : (x * y).toModel.unpack = (Float.ofModel (.pack
    (UnpackedFloat.mul Format.binary64 x.toModel.unpack y.toModel.unpack))).toModel.unpack := rfl

/-- A sum is computed on the unpacked doubles and packed once. -/
theorem unpack_add (x y : Float) : (x + y).toModel.unpack = (Float.ofModel (.pack
    (UnpackedFloat.add Format.binary64 x.toModel.unpack y.toModel.unpack))).toModel.unpack := rfl

/-- Products of doubles do not depend on the order of the factors. -/
theorem Double.mul_comm (x y : Float) : x * y = y * x := by
  have hsign (s t : Sign) : s * t = t * s := by cases s <;> cases t <;> rfl
  have hunpacked (u v : UnpackedFloat) :
      UnpackedFloat.mul Format.binary64 u v = UnpackedFloat.mul Format.binary64 v u := by
    cases u <;> cases v <;> simp only [UnpackedFloat.mul, hsign, Nat.mul_comm, Int.add_comm]
  exact congrArg (fun u => Float.ofModel (.pack u)) (hunpacked _ _)

/-- Sums of two doubles do not depend on their order. -/
theorem Double.add_comm (x y : Float) : x + y = y + x := by
  have hunpacked (u v : UnpackedFloat) :
      UnpackedFloat.add Format.binary64 u v = UnpackedFloat.add Format.binary64 v u := by
    cases u with
    | notANumber => cases v <;> rfl
    | infinity s | zero s =>
      cases v with
      | infinity t | zero t => cases s <;> cases t <;> rfl
      | notANumber | finite t => rfl
    | finite s m e =>
      cases v with
      | finite t n f =>
        simp only [UnpackedFloat.add]
        rw [min_comm, Int.add_comm]
      | notANumber | infinity t | zero t => rfl
  exact congrArg (fun u => Float.ofModel (.pack u)) (hunpacked _ _)

/-- A product with a factor that is no number is none. -/
theorem isNaN_mul (hx : x.isNaN = true) (y : Float) : (x * y).isNaN = true := by
  rw [isNaN_iff_unpack, unpack_mul, isNaN_iff_unpack.mp hx]
  cases y.toModel.unpack <;> exact unpack_pack_notANumber

/-- A sum with a summand that is no number is none. -/
theorem isNaN_add (hx : x.isNaN = true) (y : Float) : (x + y).isNaN = true := by
  rw [isNaN_iff_unpack, unpack_add, isNaN_iff_unpack.mp hx]
  cases y.toModel.unpack <;> exact unpack_pack_notANumber

/-- A finite double times zero is zero, of one sign or the other. -/
theorem Double.mul_zero (hx : x.isFinite = true) (hz : (z == 0) = true) : (x * z == 0) = true := by
  obtain ⟨sign, hz⟩ := beq_zero_iff.mp hz
  rw [isFinite_eq] at hx
  rw [beq_zero_iff, unpack_mul, hz]
  cases hu : x.toModel.unpack with
  | notANumber | infinity s =>
    rw [hu] at hx
    cases hx
  | zero s | finite s => exact ⟨s * sign, unpack_pack_zero _⟩

/-- Zero times an infinity is no number. -/
theorem isNaN_mul_zero (hx : x.isFinite = false) (hz : (z == 0) = true) :
    (x * z).isNaN = true := by
  obtain ⟨sign, hz⟩ := beq_zero_iff.mp hz
  rw [isFinite_eq] at hx
  rw [isNaN_iff_unpack, unpack_mul, hz]
  cases hu : x.toModel.unpack with
  | notANumber | infinity s => exact unpack_pack_notANumber
  | zero s | finite s =>
    rw [hu] at hx
    cases hx

/-- A product with a factor that is not finite is not finite either. -/
theorem isFinite_mul_eq_false (x : Float) (hy : y.isFinite = false) :
    (x * y).isFinite = false := by
  cases hu : x.toModel.unpack with
  | notANumber => exact isFinite_eq_false_of_isNaN (isNaN_mul (isNaN_iff_unpack.mpr hu) y)
  | zero s =>
    rw [Double.mul_comm]
    exact isFinite_eq_false_of_isNaN (isNaN_mul_zero hy (beq_zero_iff.mpr ⟨s, hu⟩))
  | infinity s | finite s =>
    rw [isFinite_eq] at hy
    rw [isFinite_eq, unpack_mul, hu]
    cases hv : y.toModel.unpack with
    | notANumber => exact congrArg UnpackedFloat.isFinite unpack_pack_notANumber
    | infinity t => exact congrArg UnpackedFloat.isFinite (unpack_pack_infinity (s * t))
    | zero t | finite t =>
      rw [hv] at hy
      cases hy

/-- If a product is finite, so is its second factor. -/
theorem isFinite_of_mul (h : (x * y).isFinite = true) : y.isFinite = true := by
  by_contra hy
  rw [isFinite_mul_eq_false x (Bool.not_eq_true _ ▸ hy)] at h
  cases h

/-- A factor of one changes no double, not even one that is no number. -/
theorem Double.mul_one (x : Float) : x * 1 = x := by
  have hsign (s : Sign) : s * .positive = s := by cases s <;> rfl
  have hunpacked : UnpackedFloat.mul Format.binary64 x.toModel.unpack (1 : Float).toModel.unpack =
      x.toModel.unpack := by
    rw [unpack_one]
    cases hu : x.toModel.unpack with
    | notANumber => rfl
    | infinity s | zero s => exact congrArg _ (hsign s)
    | finite s m e hpos =>
      have hm : Canonical m e := by
        have hx : Binary.ofFloat x = .finite (Binary.isMinus s) m e := by
          unfold Binary.ofFloat
          rw [hu]
        exact (Binary.canonical_of_ofFloat hx).resolve_left fun h => hpos.ne' h.1
      have hround := roundWithAccuracy_of_canonical hm s 52
      rw [UnpackedFloat.mul, hsign]
      exact hround
  change Float.ofModel (.pack _) = x
  rw [hunpacked, Binary.ofModel_pack_unpack]

/-- The doubles are the same, a zero without regard to its sign. -/
def Same (x y : Float) : Prop := x = y ∨ (x == 0) = true ∧ (y == 0) = true

namespace Same

/-- Every double is the same as itself, which `==` does not say of one that is no
number. -/
theorem refl (x : Float) : Same x x := .inl rfl

/-- The two zeros count as the same. -/
theorem of_zeros (hx : (x == 0) = true) (hy : (y == 0) = true) : Same x y := .inr ⟨hx, hy⟩

/-- Sameness of doubles can be read from right to left. -/
theorem symm (h : Same x y) : Same y x := h.imp Eq.symm And.symm

/-- What is the same as a zero is a zero. -/
theorem beq_zero (h : Same x y) (hy : (y == 0) = true) : (x == 0) = true := by
  rcases h with rfl | h
  · exact hy
  · exact h.1

/-- Sameness of doubles can be chained. -/
theorem trans (hxy : Same x y) (hyz : Same y z) : Same x z := by
  rcases hyz with rfl | ⟨hy, hz⟩
  · exact hxy
  · exact of_zeros (hxy.beq_zero hy) hz

/-- What is the same as a finite double is finite. -/
theorem isFinite (h : Same x y) (hy : y.isFinite = true) : x.isFinite = true := by
  rcases h with rfl | h
  · exact hy
  · exact isFinite_of_beq_zero h.1

/-- What is the same as something that is no number is no number. -/
theorem isNaN (h : Same x y) (hy : y.isNaN = true) : x.isNaN = true := by
  rcases h with rfl | h
  · exact hy
  · exact absurd hy (not_isNaN_of_isFinite (isFinite_of_beq_zero h.2))

/-- Products with a common factor are the same if the other factors are: the sign of a
zero makes only the sign of a zero. -/
theorem mul_left (h : Same x y) (z : Float) : Same (z * x) (z * y) := by
  rcases h with rfl | ⟨hx, hy⟩
  · exact refl _
  · by_cases hz : z.isFinite = true
    · exact of_zeros (Double.mul_zero hz hx) (Double.mul_zero hz hy)
    · rw [Bool.not_eq_true] at hz
      exact .inl (eq_of_isNaN (isNaN_mul_zero hz hx) (isNaN_mul_zero hz hy))

/-- Adding a zero changes nothing but the sign of a zero. -/
theorem add_zero (x : Float) (hz : (z == 0) = true) : Same (x + z) x := by
  obtain ⟨sign, hz⟩ := beq_zero_iff.mp hz
  cases hu : x.toModel.unpack with
  | notANumber | infinity s | finite s =>
    have hunpacked : UnpackedFloat.add Format.binary64 x.toModel.unpack z.toModel.unpack =
        x.toModel.unpack := by
      rw [hu, hz]
      rfl
    left
    change Float.ofModel (.pack _) = x
    rw [hunpacked, Binary.ofModel_pack_unpack]
  | zero s =>
    refine of_zeros ?_ (beq_zero_iff.mpr ⟨s, hu⟩)
    rw [beq_zero_iff, unpack_add, hu, hz]
    cases s <;> cases sign <;> exact ⟨_, unpack_pack_zero _⟩

end Same

end Zeros

section WholeNumbers

variable {n : Nat}

/-- A finite double with all bits of its mantissa in use stands for itself. -/
theorem unpack_pack_of_canonical {m : Nat} {e : Int} (h : Canonical m e) (hfull : 2 ^ 52 ≤ m)
    (sign : Sign) :
    (Float.ofModel (.pack (.finite sign m e h.pos))).toModel.unpack = .finite sign m e h.pos := by
  have hlt := h.lt
  have hleast := h.least
  have hgreatest := h.greatest
  simp only [mantissaBits, leastExponent, greatestExponent] at hlt hleast hgreatest
  have hlog : m.log2 = 52 := (Nat.log2_eq_iff h.pos.ne').mpr ⟨hfull, hlt⟩
  have hbiased : (e + Format.binary64.exponentBias +
      Format.binary64.mantissaBitsWithoutImplicit).toNat = (e + 1075).toNat := by
    change (e + 1023 + 52).toNat = _
    omega
  have hpack : pack Format.binary64 (.finite sign m e h.pos) = packComponents Format.binary64 sign
      (BitVec.ofNat 11 (e + 1075).toNat) (BitVec.ofNat 52 m) := by
    rw [pack]
    simp only [hlog, hbiased]
    have hsmall : ¬2 ^ Format.binary64.exponentBits ≤ (e + 1075).toNat + 1 := by
      change ¬2048 ≤ _
      omega
    have hbits : 52 + 1 = Format.binary64.mantissaBits := rfl
    rw [if_neg hsmall, if_pos hbits]
  change unpack Format.binary64 (pack Format.binary64 _) = _
  rw [hpack, unpack]
  have hexponent : (BitVec.ofNat 11 (e + 1075).toNat).toNat = (e + 1075).toNat :=
    Nat.mod_eq_of_lt (by omega)
  have hmantissa : (1#1 ++ BitVec.ofNat 52 m).toNat = m := by
    rw [toNat_implicit, BitVec.toNat_ofNat]
    omega
  -- Neither of the two exponents that mark special values is met.
  have hfinite : BitVec.ofNat 11 (e + 1075).toNat ≠ -1#11 := by
    intro heq
    have hmax : (e + 1075).toNat = 2047 := hexponent.symm.trans (congrArg BitVec.toNat heq)
    omega
  have hnormal : BitVec.ofNat 11 (e + 1075).toNat ≠ 0#11 := by
    intro heq
    have hzero : (e + 1075).toNat = 0 := hexponent.symm.trans (congrArg BitVec.toNat heq)
    omega
  have hvalue : ((e + 1075).toNat : Int) - (Format.binary64.exponentBias +
      Format.binary64.mantissaBitsWithoutImplicit) = e := by
    change ((e + 1075).toNat : Int) - (1023 + 52) = e
    omega
  simp only [unpackMantissa_packComponents, unpackExponent_packComponents,
    unpackSign_packComponents, Sign.ofBitVec_toBitVec, hexponent, hmantissa, hvalue, if_neg hfinite,
    if_neg hnormal]

/-- The mantissa of a whole number: the number with its highest bit moved to the
highest place. -/
theorem canonical_whole (hpos : 0 < n) (hlt : n < 2 ^ 53) :
    2 ^ 52 ≤ n * 2 ^ (52 - n.log2) ∧ Canonical (n * 2 ^ (52 - n.log2)) (-(52 - n.log2 : ℕ)) := by
  obtain ⟨hlow, hhigh⟩ := (Nat.log2_eq_iff hpos.ne').mp rfl
  have hlog : n.log2 < 53 := (Nat.log2_lt hpos.ne').mpr hlt
  have hpow : 0 < 2 ^ (52 - n.log2) := by positivity
  have hfull : 2 ^ 52 ≤ n * 2 ^ (52 - n.log2) := by
    calc 2 ^ 52 = 2 ^ n.log2 * 2 ^ (52 - n.log2) := by rw [← pow_add]; congr 1; omega
      _ ≤ n * 2 ^ (52 - n.log2) := by gcongr
  have hbits : n * 2 ^ (52 - n.log2) < 2 ^ 53 := by
    calc n * 2 ^ (52 - n.log2) < 2 ^ (n.log2 + 1) * 2 ^ (52 - n.log2) := by gcongr
      _ = 2 ^ 53 := by rw [← pow_add]; congr 1; omega
  refine ⟨hfull, by positivity, hbits, ?_, ?_, .inl hfull⟩
  all_goals simp only [leastExponent, greatestExponent]
  all_goals omega

/-- A whole number below 2⁵³ is held exactly, with zeros behind its bits up to the
53rd. -/
theorem unpack_ofNat (hpos : 0 < n) (hlt : n < 2 ^ 53) : (Float.ofNat n).toModel.unpack =
    .finite .positive (n * 2 ^ (52 - n.log2)) (-(52 - n.log2 : ℕ))
      (canonical_whole hpos hlt).2.pos := by
  obtain ⟨hfull, hcanonical⟩ := canonical_whole hpos hlt
  have hvalue : Float.ofNat n = n.toUInt64.toFloat := by
    change Float.ofScientific n false 0 = _
    rw [Float.ofScientific, dif_pos ⟨hlt, by decide⟩]
    exact Double.mul_one _
  have hword : n.toUInt64.toNat = n := Nat.mod_eq_of_lt (by omega)
  have hround := round_of_canonical_mul hcanonical .positive
  rw [neg_add_cancel] at hround
  have hunpacked : UnpackedFloat.ofUInt64 Format.binary64 n.toUInt64 =
      .finite .positive (n * 2 ^ (52 - n.log2)) (-(52 - n.log2 : ℕ)) hcanonical.pos := by
    have hsign : compare (n : Int) 0 = .gt := by
      rw [compare_gt_iff_gt]
      exact_mod_cast hpos
    simp only [UnpackedFloat.ofUInt64, UnpackedFloat.ofNat, UnpackedFloat.ofInt,
      UnpackedFloat.normalize, hword, hsign, Int.toNat_natCast, hround]
  rw [hvalue]
  change (Float.ofModel (.pack _)).toModel.unpack = _
  rw [hunpacked, unpack_pack_of_canonical hcanonical hfull]

/-- Whole numbers below 2⁵³ are finite doubles. -/
theorem isFinite_ofNat (hlt : n < 2 ^ 53) : (Float.ofNat n).isFinite = true := by
  rcases Nat.eq_zero_or_pos n with rfl | hpos
  · rfl
  · rw [isFinite_eq, unpack_ofNat hpos hlt]
    rfl

/-- The mantissas of a whole number and of one are taken to the exponent of one,
where they are multiples of `2 ^ 52`. -/
theorem sub_one_eq_normalize (hlt : n + 1 < 2 ^ 53) :
    UnpackedFloat.sub Format.binary64 (Float.ofNat (n + 1)).toModel.unpack
        (1 : Float).toModel.unpack =
      UnpackedFloat.normalize Format.binary64 (n * 2 ^ 52 : Nat) (-52) .positive := by
  have hlog : (n + 1).log2 < 53 := (Nat.log2_lt (by omega)).mpr hlt
  have hmin : min (-(52 - (n + 1).log2 : ℕ) : Int) (-52) = -52 := by omega
  have hamount : (-(52 - (n + 1).log2 : ℕ) - -52 : Int).toNat = (n + 1).log2 := by omega
  have hmantissa : (n + 1) * 2 ^ (52 - (n + 1).log2) * 2 ^ (n + 1).log2 = (n + 1) * 2 ^ 52 := by
    rw [Nat.mul_assoc, ← pow_add, Nat.sub_add_cancel (by omega)]
  have hrest : (((n + 1) * 2 ^ 52 : ℕ) : Int) - (2 ^ 52 : ℕ) = (n * 2 ^ 52 : ℕ) := by
    push_cast
    ring
  rw [unpack_ofNat (by omega : 0 < n + 1) hlt, unpack_one]
  simp only [UnpackedFloat.sub, hmin, decreaseExponent, hamount, Nat.shiftLeft_eq, hmantissa,
    sub_self, Int.toNat_zero, pow_zero, Nat.mul_one, Sign.apply, hrest]

/-- Taking one from a whole number gives the one before it. -/
theorem ofNat_succ_sub_one (hlt : n + 1 < 2 ^ 53) :
    Float.ofNat (n + 1) - 1 = Float.ofNat n := by
  rw [← Binary.ofModel_pack_unpack (Float.ofNat n)]
  change Float.ofModel (.pack (UnpackedFloat.sub Format.binary64 _ _)) = _
  rw [sub_one_eq_normalize hlt]
  rcases Nat.eq_zero_or_pos n with rfl | hpos
  · rw [Nat.zero_mul]
    rfl
  · obtain ⟨-, hcanonical⟩ := canonical_whole hpos (by omega : n < 2 ^ 53)
    have hlog : n.log2 < 53 := (Nat.log2_lt hpos.ne').mpr (by omega)
    have hmantissa : n * 2 ^ (52 - n.log2) * 2 ^ n.log2 = n * 2 ^ 52 := by
      rw [Nat.mul_assoc, ← pow_add, Nat.sub_add_cancel (by omega)]
    have hexponent : (-(52 - n.log2 : ℕ) - n.log2 : Int) = -52 := by omega
    have hround := round_of_canonical hcanonical .positive n.log2
    rw [hmantissa, hexponent] at hround
    have hsign : compare ((n * 2 ^ 52 : ℕ) : Int) 0 = .gt := by
      rw [compare_gt_iff_gt]
      exact_mod_cast Nat.mul_pos hpos (by positivity)
    have hnormalize : UnpackedFloat.normalize Format.binary64 (n * 2 ^ 52 : ℕ) (-52) .positive =
        (Float.ofNat n).toModel.unpack := by
      rw [unpack_ofNat hpos (by omega), UnpackedFloat.normalize, hsign]
      exact hround
    rw [hnormalize]

end WholeNumbers

end FormulaCalculator.Number
