import FormulaCalculator.Number.Binary
import Mathlib

/-!
# Doubles and what they stand for

A double is a word of a sign, an exponent and a mantissa. Reading off what it
stands for loses nothing, so a double is known by its sign, its mantissa and its
exponent. The mantissa of a finite double is as large as it can be, which makes
it the only one for its value.
-/

set_option autoImplicit false

namespace FormulaCalculator.Number

open Float.Model (UnpackedFloat Format)
open Float.Model.UnpackedFloat

/-- The mantissa and the exponent are those of a finite double other than zero. -/
structure Canonical (mantissa : Nat) (exponent : Int) : Prop where
  pos : 0 < mantissa
  lt : mantissa < 2 ^ mantissaBits
  least : leastExponent ≤ exponent
  greatest : exponent ≤ greatestExponent
  full : 2 ^ (mantissaBits - 1) ≤ mantissa ∨ exponent = leastExponent

/-- The fields of a word that stands for a finite double other than zero. The
mantissa has one bit more than its field, unless the exponent is the least. -/
inductive StandsFor (b : BitVec Format.binary64.numBits) : UnpackedFloat → Prop where
  | infinity : unpackExponent b = -1#11 → unpackMantissa b = 0#52 →
      StandsFor b (.infinity (.ofBitVec (unpackSign b)))
  | notANumber : unpackExponent b = -1#11 → unpackMantissa b ≠ 0#52 → StandsFor b .notANumber
  | zero : unpackExponent b = 0#11 → unpackMantissa b = 0#52 →
      StandsFor b (.zero (.ofBitVec (unpackSign b)))
  | subnormal {m : Nat} (hpos : 0 < m) : unpackExponent b = 0#11 → m = (unpackMantissa b).toNat →
      StandsFor b (.finite (.ofBitVec (unpackSign b)) m (-1074) hpos)
  | normal {m k : Nat} (hpos : 0 < m) : k = (unpackExponent b).toNat → 0 < k → k < 2047 →
      m = 2 ^ 52 + (unpackMantissa b).toNat →
      StandsFor b (.finite (.ofBitVec (unpackSign b)) m (k - 1075) hpos)

/-- The leading bit of a mantissa, which has no place in the word, stands for 2⁵². -/
theorem toNat_implicit (m : BitVec 52) : (1#1 ++ m).toNat = 2 ^ 52 + m.toNat := by
  rw [BitVec.toNat_append, ← Nat.shiftLeft_add_eq_or_of_lt m.isLt]
  rfl

/-- Unpacking tells what a word stands for, in every case that the fields leave. -/
theorem standsFor_unpack (b : BitVec Format.binary64.numBits) :
    StandsFor b (unpack Format.binary64 b) := by
  have hbias : (Format.binary64.exponentBias : Int) = 1023 := rfl
  have hbits : (Format.binary64.mantissaBitsWithoutImplicit : Int) = 52 := rfl
  rw [unpack]
  dsimp only
  split
  · next hexponent =>
    split
    · next hmantissa => exact .infinity hexponent hmantissa
    · next hmantissa => exact .notANumber hexponent hmantissa
  · next hfinite =>
    split
    · next hexponent =>
      split
      · next hmantissa => exact .zero hexponent hmantissa
      · have hleast : ((unpackExponent b).toNat : Int) - (Format.binary64.exponentBias +
            Format.binary64.mantissaBitsWithoutImplicit) + 1 = -1074 := by
          rw [hexponent, hbias, hbits]
          rfl
        simp only [hleast]
        exact .subnormal _ hexponent rfl
    · next hnormal =>
      have hk : ((unpackExponent b).toNat : Int) - (Format.binary64.exponentBias +
          Format.binary64.mantissaBitsWithoutImplicit) = (unpackExponent b).toNat - 1075 := by
        rw [hbias, hbits]
        omega
      have hlt := (unpackExponent b).isLt
      have hpos : (unpackExponent b).toNat ≠ 0 := fun h => hnormal (BitVec.eq_of_toNat_eq h)
      have hmax : (unpackExponent b).toNat ≠ 2047 := fun h => hfinite (BitVec.eq_of_toNat_eq h)
      simp only [hk]
      refine .normal _ rfl (by omega) ?_ (toNat_implicit _)
      simp only [Format.binary64] at hlt
      omega

section Words

variable {spec : Format}

/-- Words that differ in their signs alone stand for opposite numbers. -/
theorem unpack_packComponents_neg (sign : Sign) (exponent : BitVec spec.exponentBits)
    (mantissa : BitVec spec.mantissaBitsWithoutImplicit) :
    unpack spec (packComponents spec (-sign) exponent mantissa) =
      (unpack spec (packComponents spec sign exponent mantissa)).neg := by
  simp only [unpack, unpackSign_packComponents, unpackExponent_packComponents,
    unpackMantissa_packComponents, Sign.ofBitVec_toBitVec]
  split
  · split <;> rfl
  · split
    · split <;> rfl
    · rfl

/-- Packing loses nothing of what a word stands for. -/
theorem unpack_pack_unpack (b : BitVec spec.numBits) (hspec : 2 ≤ spec.exponentBits) :
    unpack spec (pack spec (unpack spec b)) = unpack spec b := by
  rw [pack_unpack b hspec]
  split
  · next hnan =>
    simp only [isNaNBits, decide_eq_true_eq] at hnan
    rw [unpack_packedNaN]
    simp [unpack, hnan]
  · rfl

end Words

/-- Negating a double changes the sign of what its word stands for. -/
theorem unpack_neg (x : Float) : (-x).toModel.unpack = x.toModel.unpack.neg := by
  have hopposite (b : BitVec Format.binary64.numBits) :
      unpack Format.binary64 (pack Format.binary64 (unpack Format.binary64 b).neg) =
        (unpack Format.binary64 b).neg := by
    rw [← packComponents_unpackSign_unpackExponent_unpackMantissa b, ← unpack_packComponents_neg,
      unpack_pack_unpack _ (by decide)]
  exact hopposite x.toModel.toBits.toBitVec

namespace Binary

/-- A sign is found again from whether it is a minus. -/
theorem signOf_isMinus (sign : Sign) : signOf (isMinus sign) = sign := by
  cases sign <;> rfl

/-- A double is what its unpacked form is packed to, so the unpacked form tells all of
it. -/
theorem ofModel_pack_unpack (x : Float) : .ofModel (.pack x.toModel.unpack) = x := by
  obtain ⟨bits, hvalid⟩ := x
  have hbits : UInt64.ofBitVec (pack Format.binary64 (unpack Format.binary64 bits.toBitVec)) =
      bits := by
    rw [pack_unpack_of_valid hvalid]
  unfold Float.Model.pack Float.Model.unpack
  simp only [hbits]

/-- A double is known by what it stands for. -/
theorem toFloat_ofFloat (x : Float) : (ofFloat x).toFloat = x := by
  have hpack : (ofFloat x).toFloat = .ofModel (.pack x.toModel.unpack) := by
    unfold ofFloat
    cases x.toModel.unpack with
    | infinity sign | zero sign => simp [toFloat, signOf_isMinus]
    | notANumber => rfl
    | finite sign m e hpos => simp [toFloat, signOf_isMinus, hpos.ne']
  rw [hpack, ofModel_pack_unpack]

/-- Doubles that differ are read as different numbers: an exact number belongs to one
double. -/
theorem ofFloat_injective : Function.Injective ofFloat :=
  Function.LeftInverse.injective toFloat_ofFloat

/-- The sign that is opposite to a minus is no minus. -/
theorem isMinus_neg (sign : Sign) : isMinus (-sign) = !isMinus sign := by
  cases sign <;> rfl

/-- The opposite of a finite double has the other sign and the same magnitude. -/
theorem ofFloat_neg {x : Float} {negative : Bool} {m : Nat} {e : Int}
    (h : ofFloat x = .finite negative m e) : ofFloat (-x) = .finite (!negative) m e := by
  unfold ofFloat at h ⊢
  rw [unpack_neg]
  cases hx : x.toModel.unpack with
  | zero sign | finite sign m' e' hpos =>
    rw [hx] at h
    cases h
    simp [UnpackedFloat.neg, isMinus_neg]
  | notANumber | infinity sign =>
    rw [hx] at h
    cases h

/-- A double is the opposite of its opposite. -/
theorem neg_neg_eq (x : Float) : - -x = x := by
  apply ofFloat_injective
  have hopposite : (- -x).toModel.unpack = x.toModel.unpack := by
    rw [unpack_neg, unpack_neg]
    cases x.toModel.unpack with
    | notANumber => rfl
    | infinity sign | zero sign | finite sign => cases sign <;> rfl
  unfold ofFloat
  rw [hopposite]

/-- A finite double is zero, or its mantissa is as large as it can be. -/
theorem canonical_of_ofFloat {x : Float} {negative : Bool} {m : Nat} {e : Int}
    (h : ofFloat x = .finite negative m e) : m = 0 ∧ e = 0 ∨ Canonical m e := by
  have hstands := standsFor_unpack x.toModel.toBits.toBitVec
  have hlt := (@unpackMantissa Format.binary64 x.toModel.toBits.toBitVec).isLt
  unfold ofFloat Float.Model.unpack at h
  generalize unpack Format.binary64 x.toModel.toBits.toBitVec = u at hstands h
  simp only [Format.binary64] at hlt
  cases hstands with
  | infinity | notANumber => cases h
  | zero =>
    cases h
    exact .inl ⟨rfl, rfl⟩
  | subnormal hpos _ hm =>
    cases h
    refine .inr ⟨hpos, ?_, by decide, by decide, .inr rfl⟩
    rw [hm, mantissaBits]
    omega
  | normal hpos hk hk0 hmax hm =>
    cases h
    refine .inr ⟨hpos, ?_, ?_, ?_, .inl ?_⟩
    all_goals simp only [mantissaBits, leastExponent, greatestExponent]
    all_goals omega

/-- A finite double other than zero is packed field by field, with its own sign. -/
theorem exists_pack_eq (sign : Sign) {m : Nat} (e : Int) (hpos : 0 < m) :
    ∃ exponent mantissa, pack Format.binary64 (.finite sign m e hpos) =
      packComponents Format.binary64 sign exponent mantissa := by
  unfold pack
  dsimp only
  split
  · exact ⟨_, _, rfl⟩
  · split <;> exact ⟨_, _, rfl⟩

/-- Whether a sign is a minus is found again from the sign. -/
theorem isMinus_signOf (negative : Bool) : isMinus (signOf negative) = negative := by
  cases negative <;> rfl

/-- A double that is a number has the sign of its word. -/
theorem sign_of_word {x : Float} {sign : Sign} {exponent : BitVec 11} {mantissa : BitVec 52}
    {negative : Bool}
    (hx : x.toModel.toBits.toBitVec = packComponents Format.binary64 sign exponent mantissa)
    (h : ofFloat x = .infinite negative ∨ ∃ m e, ofFloat x = .finite negative m e) :
    negative = isMinus sign := by
  have hsign : Sign.ofBitVec (@unpackSign Format.binary64 x.toModel.toBits.toBitVec) = sign := by
    rw [hx, unpackSign_packComponents, Sign.ofBitVec_toBitVec]
  have hstands := standsFor_unpack x.toModel.toBits.toBitVec
  unfold ofFloat Float.Model.unpack at h
  generalize unpack Format.binary64 x.toModel.toBits.toBitVec = u at hstands h
  cases hstands with
  | notANumber => rcases h with h | ⟨m, e, h⟩ <;> cases h
  | infinity | zero | subnormal | normal =>
    rcases h with h | ⟨m, e, h⟩ <;> cases h
    rw [hsign]

/-- Making a double of a number keeps its sign, even where it becomes an infinity. -/
theorem sign_of_toFloat {negative sign : Bool} {m : Nat} {e : Int}
    (h : ofFloat (toFloat (.finite negative m e)) = .infinite sign ∨
      ∃ n f, ofFloat (toFloat (.finite negative m e)) = .finite sign n f) : sign = negative := by
  rw [← isMinus_signOf negative]
  by_cases hm : m = 0
  · have hx : (toFloat (.finite negative m e)).toModel.toBits.toBitVec =
        packComponents Format.binary64 (signOf negative) 0 0 := by
      rw [toFloat, dif_pos hm]
      rfl
    exact sign_of_word hx h
  · obtain ⟨exponent, mantissa, hpack⟩ := exists_pack_eq (signOf negative) e (Nat.pos_of_ne_zero hm)
    have hx : (toFloat (.finite negative m e)).toModel.toBits.toBitVec =
        packComponents Format.binary64 (signOf negative) exponent mantissa := by
      rw [toFloat, dif_neg hm, ← hpack]
      rfl
    exact sign_of_word hx h

/-- An infinity is read back with its sign. -/
theorem ofFloat_infinite (negative : Bool) :
    ofFloat (toFloat (.infinite negative)) = .infinite negative := by
  cases negative <;> decide

end Binary

end FormulaCalculator.Number
