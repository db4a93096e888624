import FormulaCalculator.Number.Literal
import FormulaCalculator.Proofs.DecimalText
import FormulaCalculator.Proofs.NearestDouble

/-!
# The shortest text of a double reads back

Whatever text is chosen for a double, the number it spells lies in the interval
of the numbers that are rounded to the double. So reading the text gives the
double again, whichever grid of decimals it was found on.
-/

set_option autoImplicit false

namespace FormulaCalculator.Number

variable {m digit : Nat} {e exponent : Int}

section Quotients

variable {a p q r s : Nat}

/-- Fractions of whole numbers are compared without a division, with a factor on the
left. -/
theorem mul_div_le_div_iff (hq : 0 < q) (hs : 0 < s) :
    (a * (p / q) : ℚ) ≤ r / s ↔ a * p * s ≤ r * q := by
  rw [← mul_div_assoc, div_le_div_iff₀ (by positivity) (by positivity)]
  exact_mod_cast Iff.rfl

/-- Fractions of whole numbers are compared without a division, with a factor on the
right. -/
theorem div_le_mul_div_iff (hq : 0 < q) (hs : 0 < s) :
    (r / s : ℚ) ≤ a * (p / q) ↔ r * q ≤ a * p * s := by
  rw [← mul_div_assoc, div_le_div_iff₀ (by positivity) (by positivity)]
  exact_mod_cast Iff.rfl

end Quotients

/-- Below the least mantissa of an exponent the doubles are twice as dense, so a double
reaches half as far there. -/
theorem reach_mem (m : Nat) (e : Int) : reach m e = 1 ∨ reach m e = 2 := by
  unfold reach
  split
  · exact .inl rfl
  · exact .inr rfl

/-- A decimal that the check finds in the interval is in the interval of the values that
are rounded to the double. -/
theorem contains_of_eq_true (h : (RoundingInterval.of m e).contains digit exponent = true) :
    let unit := scaleBy 2 1 1 (e - 2)
    let value := scaleBy 10 digit 1 exponent
    (4 * m - reach m e) * unit.1 * value.2 ≤ value.1 * unit.2 ∧
      value.1 * unit.2 ≤ (4 * m + 2) * unit.1 * value.2 ∧
      (m % 2 = 0 ∨ (4 * m - reach m e) * unit.1 * value.2 < value.1 * unit.2 ∧
        value.1 * unit.2 < (4 * m + 2) * unit.1 * value.2) := by
  intro unit value
  unfold RoundingInterval.contains RoundingInterval.of at h
  dsimp only at h
  split at h
  · next heven =>
    simp only [Bool.and_eq_true, decide_eq_true_eq] at h
    exact ⟨h.1, h.2, .inl (by simpa using heven)⟩
  · simp only [Bool.and_eq_true, decide_eq_true_eq] at h
    exact ⟨h.1.le, h.2.le, .inr h⟩

/-- The interval of a double holds the numbers that are rounded to it. -/
theorem roundsTo_of_contains (hm : 0 < m)
    (h : (RoundingInterval.of m e).contains digit exponent = true) :
    RoundsTo m e (digit * 10 ^ exponent) := by
  have hunitDen := @scaleBy_den_pos 2 1 1 (by decide) (by decide) (e - 2)
  have hvalueDen := @scaleBy_den_pos 10 digit 1 (by decide) (by decide) exponent
  have hunit : ((scaleBy 2 1 1 (e - 2)).1 / (scaleBy 2 1 1 (e - 2)).2 : ℚ) = 2 ^ e / 4 := by
    rw [scaleBy_div (by decide), Nat.cast_one, div_one, one_mul, Nat.cast_ofNat,
      zpow_sub₀ (by norm_num : (2 : ℚ) ≠ 0)]
    norm_num
  have hvalue : ((scaleBy 10 digit 1 exponent).1 / (scaleBy 10 digit 1 exponent).2 : ℚ) =
      digit * 10 ^ exponent := by
    rw [scaleBy_div (by decide), Nat.cast_one, div_one, Nat.cast_ofNat]
  -- In quarters of the unit of the mantissa both ends of the interval are whole numbers.
  have hlow : (m - reach m e / 4 : ℚ) * 2 ^ e = (4 * m - reach m e : ℕ) *
      ((scaleBy 2 1 1 (e - 2)).1 / (scaleBy 2 1 1 (e - 2)).2) := by
    have hle : reach m e ≤ 4 * m := by
      rcases reach_mem m e with h | h <;> omega
    rw [hunit, Nat.cast_sub hle]
    push_cast
    ring
  have hhigh : (m + 1 / 2 : ℚ) * 2 ^ e = (4 * m + 2 : ℕ) *
      ((scaleBy 2 1 1 (e - 2)).1 / (scaleBy 2 1 1 (e - 2)).2) := by
    rw [hunit]
    push_cast
    ring
  obtain ⟨hle, hge, htie⟩ := contains_of_eq_true h
  rw [← hvalue]
  refine ⟨?_, ?_, htie.imp_right fun hstrict => ⟨?_, ?_⟩⟩
  · rw [hlow]
    exact (mul_div_le_div_iff hunitDen hvalueDen).mpr hle
  · rw [hhigh]
    exact (div_le_mul_div_iff hunitDen hvalueDen).mpr hge
  · rw [hlow, ← not_le, div_le_mul_div_iff hunitDen hvalueDen, not_le]
    exact hstrict.1
  · rw [hhigh, ← not_le, mul_div_le_div_iff hunitDen hvalueDen, not_le]
    exact hstrict.2

/-- A decimal that is chosen on one grid is in the interval. -/
theorem contains_of_onGrid? {i : RoundingInterval} (h : i.onGrid? exponent = some digit) :
    i.contains digit exponent = true := by
  unfold RoundingInterval.onGrid? at h
  dsimp only at h
  split at h
  · next hlower hupper =>
    obtain rfl := Option.some.inj h
    rcases roundQuotient_eq_or .up (scaleBy 10 i.value i.den (-exponent)).1
      (scaleBy 10 i.value i.den (-exponent)).2 with heq | heq
    · rw [heq]
      exact hlower
    · rw [heq]
      exact hupper
  · next hlower _ =>
    obtain rfl := Option.some.inj h
    exact hlower
  · next _ hupper =>
    obtain rfl := Option.some.inj h
    exact hupper
  · cases h

/-- The decimal that is chosen for the shortest text is in the interval, on whatever grid
it was found. -/
theorem contains_of_shortest? {i : RoundingInterval} (h : i.shortest? = some (digit, exponent)) :
    i.contains digit exponent = true := by
  unfold RoundingInterval.shortest? at h
  obtain ⟨n, -, hn⟩ := List.exists_of_findSome?_eq_some h
  obtain ⟨found, hfound, heq⟩ := Option.map_eq_some_iff.mp hn
  cases heq
  exact contains_of_onGrid? hfound

/-- The text of a magnitude spells a number that is rounded to it. -/
theorem exists_positional (hm : 0 < m) :
    ∃ digit exponent, shortestMagnitude m e = positional digit exponent ∧
      RoundsTo m e (digit * 10 ^ exponent) := by
  unfold shortestMagnitude
  split
  · next digit exponent hshortest =>
    exact ⟨digit, exponent, rfl, roundsTo_of_contains hm (contains_of_shortest? hshortest)⟩
  · split
    · next hexponent =>
      refine ⟨m * 2 ^ e.toNat, 0, ?_, ?_⟩
      · simp [positional]
      · have hvalue : ((m * 2 ^ e.toNat : ℕ) : ℚ) * 10 ^ (0 : ℤ) = m * 2 ^ e := by
          rw [zpow_zero, mul_one, Nat.cast_mul, Nat.cast_pow, Nat.cast_ofNat, ← zpow_natCast,
            Int.toNat_of_nonneg hexponent]
        rw [hvalue]
        exact roundsTo_self m e
    · next hexponent =>
      refine ⟨m * 5 ^ (-e).toNat, e, ?_, ?_⟩
      · simp [positional, hexponent]
      · have hvalue : ((m * 5 ^ (-e).toNat : ℕ) : ℚ) * 10 ^ e = m * 2 ^ e := by
          have hfive : ((5 ^ (-e).toNat : ℕ) : ℚ) = 5 ^ (-e) := by
            rw [Nat.cast_pow, Nat.cast_ofNat, ← zpow_natCast, Int.toNat_of_nonneg (by omega)]
          have hten : (10 : ℚ) ^ e = 2 ^ e * 5 ^ e := by
            rw [← mul_zpow]
            norm_num
          rw [Nat.cast_mul, hfive, hten, zpow_neg]
          field_simp
        rw [hvalue]
        exact roundsTo_self m e

/-- A number is below the power of ten with as many zeros as it has digits. -/
theorem lt_ten_pow_digitCount (n : Nat) : n < 10 ^ digitCount n := by
  by_cases hn : n = 0
  · subst hn
    decide
  · rw [digitCount, if_neg hn]
    exact (Nat.length_toDigits_le_iff (by decide) Nat.length_toDigits_pos).mp (Nat.le_refl _)

/-- The powers of ten that are not formed are below all doubles. -/
theorem neg_330_le_of_roundsTo {mantissa : Nat} (hm : Canonical m e)
    (h : RoundsTo m e (mantissa * 10 ^ exponent)) : -330 ≤ exponent + digitCount mantissa := by
  by_contra hlt
  have hhalf : (1 / 2 : ℚ) * 2 ^ (-1074 : ℤ) ≤ mantissa * 10 ^ exponent := by
    refine le_trans ?_ h.half_le
    have hmantissa : (1 : ℚ) ≤ m := by exact_mod_cast hm.pos
    have hpow : (2 : ℚ) ^ (-1074 : ℤ) ≤ 2 ^ e := zpow_le_zpow_right₀ (by norm_num) hm.least
    exact mul_le_mul (by linarith) hpow (by positivity) (by linarith)
  have hbelow : (mantissa * 10 ^ exponent : ℚ) ≤ 10 ^ (-330 : ℤ) := by
    have hcount : (mantissa : ℚ) ≤ 10 ^ (digitCount mantissa : ℤ) := by
      rw [zpow_natCast]
      exact_mod_cast (lt_ten_pow_digitCount mantissa).le
    calc (mantissa * 10 ^ exponent : ℚ)
        ≤ 10 ^ (digitCount mantissa : ℤ) * 10 ^ exponent := by gcongr
      _ = 10 ^ (digitCount mantissa + exponent : ℤ) := (zpow_add₀ (by norm_num) _ _).symm
      _ ≤ 10 ^ (-330 : ℤ) := zpow_le_zpow_right₀ (by norm_num) (by omega)
  have hgap : (10 : ℚ) ^ (-330 : ℤ) < 1 / 2 * 2 ^ (-1074 : ℤ) :=
    calc (10 : ℚ) ^ (-330 : ℤ)
        = (10 ^ (-10 : ℤ)) ^ (33 : ℤ) := by rw [← zpow_mul]; rfl
      _ < (2 ^ (-33 : ℤ)) ^ (33 : ℤ) := zpow_lt_zpow_left₀ (by norm_num) (by norm_num) (by norm_num)
      _ = 2 ^ (-14 : ℤ) * 2 ^ (-1 + -1074 : ℤ) := by rw [← zpow_mul, ← zpow_add₀ (by norm_num)]; rfl
      _ ≤ 1 * 2 ^ (-1 + -1074 : ℤ) := by gcongr; norm_num
      _ = 1 / 2 * 2 ^ (-1074 : ℤ) := by rw [zpow_add₀ (by norm_num)]; norm_num
  exact absurd (hhalf.trans hbelow) (not_le.mpr hgap)

/-- A decimal number that is rounded to a double is read as the double. -/
theorem scaled_eq {mantissa : Nat} (hm : Canonical m e) (hexponent : exponent ≤ 310)
    (h : RoundsTo m e (mantissa * 10 ^ exponent)) :
    Literal.scaled false mantissa exponent = .finite false m e := by
  have hmantissa : mantissa ≠ 0 := by
    rintro rfl
    simpa using h.pos hm.pos
  have hleast := neg_330_le_of_roundsTo hm h
  unfold Literal.scaled
  rw [if_neg (by simpa using ⟨hmantissa, hleast⟩), if_neg (by omega)]
  have hvalue := @scaleBy_div 10 mantissa 1 (by decide) exponent
  rw [Nat.cast_one, div_one, Nat.cast_ofNat] at hvalue
  have hden := @scaleBy_den_pos 10 mantissa 1 (by decide) (by decide) exponent
  rw [← hvalue] at h
  exact nearest_eq false hden hm h

/-- The double is finite and has no minus sign. -/
def Unsigned (x : Float) : Prop := ∃ m e, Binary.ofFloat x = .finite false m e

/-- A finite double has a sign, a mantissa and an exponent. -/
theorem exists_of_isFinite {x : Float} (h : x.isFinite = true) :
    ∃ negative m e, Binary.ofFloat x = .finite negative m e := by
  unfold Float.isFinite Float.Model.isFinite at h
  unfold Binary.ofFloat
  split
  · next heq => rw [heq] at h; cases h
  · next heq => rw [heq] at h; cases h
  · exact ⟨_, _, _, rfl⟩
  · exact ⟨_, _, _, rfl⟩

/-- The binary number is a double without a minus sign, infinity included. -/
def HasNoSign (number : Binary) : Prop :=
  number = .infinite false ∨ ∃ m e, number = .finite false m e

/-- Rounding a fraction to a double makes no minus sign. -/
theorem hasNoSign_nearest (num den : Nat) : HasNoSign (Binary.nearest false num den) := by
  have hcases (mantissa : Nat) (exponent : Int) :
      HasNoSign (if mantissa = 0 then .finite false 0 0
        else if greatestExponent < exponent then .infinite false
        else .finite false mantissa exponent) := by
    split
    · exact .inr ⟨_, _, rfl⟩
    · split
      · exact .inl rfl
      · exact .inr ⟨_, _, rfl⟩
  exact hcases _ _

/-- Scaling digits by a power of ten makes no minus sign. -/
theorem hasNoSign_scaled (mantissa : Nat) (exponent : Int) :
    HasNoSign (Literal.scaled false mantissa exponent) := by
  unfold Literal.scaled
  split
  · exact .inr ⟨_, _, rfl⟩
  · split
    · exact .inl rfl
    · exact hasNoSign_nearest _ _

/-- A literal without a sign is a number without a minus sign. -/
theorem hasNoSign_of_decimal? {text : List Char} {number : Binary}
    (h : Literal.decimal? false text = some number) : HasNoSign number := by
  have hcases (whole fraction rest : List Char)
      (h : (if whole.isEmpty && fraction.isEmpty then none
        else (Literal.exponent? rest).map fun exponent =>
          Literal.scaled false (ofDigits (whole ++ fraction)) (exponent - fraction.length)) =
            some number) : HasNoSign number := by
    split at h
    · cases h
    · obtain ⟨exponent, -, rfl⟩ := Option.map_eq_some_iff.mp h
      exact hasNoSign_scaled _ _
  exact hcases _ _ _ h

/-- The text of a finite double without a sign is a decimal text that is read as
the double. -/
theorem Unsigned.exists_isDecimal {x : Float} (h : Unsigned x) :
    ∃ whole fraction, IsDecimal (shortestText x) whole fraction ∧ parse (toText x) = .ok x := by
  obtain ⟨m, e, hx⟩ := h
  have hread {whole fraction : List Char} (htext : IsDecimal (shortestText x) whole fraction)
      (hscaled : Literal.scaled false (ofDigits (whole ++ fraction)) (-fraction.length) =
        .finite false m e) : parse (toText x) = .ok x := by
    rw [toText, htext.parse_ofList, hscaled, ← hx]
    exact congrArg Except.ok (Binary.toFloat_ofFloat x)
  rcases Binary.canonical_of_ofFloat hx with ⟨rfl, rfl⟩ | hm
  · have htext : shortestText x = ['0'] := by
      rw [shortestText, hx]
      rfl
    have hdecimal : IsDecimal (shortestText x) ['0'] [] := by
      rw [htext]
      exact .integer (by simp) (by simp)
    exact ⟨_, _, hdecimal, hread hdecimal (by decide)⟩
  · obtain ⟨digit, exponent, hpositional, hrounds⟩ := @exists_positional m e hm.pos
    have htext : shortestText x = positional digit exponent := by
      rw [shortestText, hx, ← hpositional]
      simp [signed, hm.pos.ne']
    obtain ⟨whole, fraction, hdecimal, hdigits, hlength⟩ := isDecimal_positional digit exponent
    rw [← htext] at hdecimal
    refine ⟨whole, fraction, hdecimal, hread hdecimal (scaled_eq hm (by omega) ?_)⟩
    have hvalue : ((ofDigits (whole ++ fraction) : ℕ) : ℚ) * 10 ^ (-fraction.length : ℤ) =
        digit * 10 ^ exponent := by
      rw [hdigits, hlength, Nat.cast_mul, Nat.cast_pow, Nat.cast_ofNat, ← zpow_natCast, mul_assoc,
        ← zpow_add₀ (by norm_num)]
      congr 2
      omega
    rw [hvalue]
    exact hrounds

/-- Whether a double has a minus sign. -/
def isSigned (x : Float) : Bool :=
  match Binary.ofFloat x with
  | .finite negative _ _ | .infinite negative => negative
  | .notANumber => false

/-- A double without a sign has no minus. -/
theorem Unsigned.isSigned_eq_false {x : Float} (h : Unsigned x) : isSigned x = false := by
  obtain ⟨m, e, hx⟩ := h
  rw [isSigned, hx]

/-- A finite double without a minus sign is unsigned. -/
theorem unsigned_of_isSigned_eq_false {x : Float} (hfinite : x.isFinite = true)
    (h : isSigned x = false) : Unsigned x := by
  obtain ⟨negative, m, e, hx⟩ := exists_of_isFinite hfinite
  rw [isSigned, hx] at h
  cases h
  exact ⟨m, e, hx⟩

/-- A number without a minus sign is a double without one. -/
theorem HasNoSign.isSigned_eq_false {number : Binary} (h : HasNoSign number) :
    isSigned number.toFloat = false := by
  rcases h with rfl | ⟨m, e, rfl⟩
  · rw [isSigned, Binary.ofFloat_infinite]
  · unfold isSigned
    split
    · next heq => exact Binary.sign_of_toFloat (.inr ⟨_, _, heq⟩)
    · next heq => exact Binary.sign_of_toFloat (.inl heq)
    · rfl

/-- A text that is read as a decimal number behind no sign has none. -/
theorem isSigned_of_decimal? {x : Float} {text : List Char}
    (hdecimal : Literal.ofChars? text = Literal.decimal? false text)
    (h : parse (String.ofList text) = .ok x) : isSigned x = false := by
  unfold parse at h
  rw [String.toList_ofList, hdecimal] at h
  split at h
  · cases h
  · cases hnumber : Literal.decimal? false text with
    | none =>
      rw [hnumber] at h
      cases h
    | some number =>
      rw [hnumber] at h
      obtain rfl := Except.ok.inj h
      exact (hasNoSign_of_decimal? hnumber).isSigned_eq_false

/-- A text of digits and points is read as a number without a sign. -/
theorem isSigned_of_all_isNumeric {x : Float} {text : List Char}
    (htext : text.all Text.isNumeric = true) (h : parse (String.ofList text) = .ok x) :
    isSigned x = false := by
  cases text with
  | nil => cases h
  | cons first rest =>
    rw [List.all_cons, Bool.and_eq_true] at htext
    exact isSigned_of_decimal? (ofChars?_of_isNumeric htext.1) h

/-- So is a text that starts with a digit. -/
theorem isSigned_of_parse {x : Float} {first : Char} {rest : List Char}
    (hfirst : first.isDigit = true) (h : parse (String.ofList (first :: rest)) = .ok x) :
    isSigned x = false :=
  isSigned_of_decimal? (ofChars?_of_isNumeric (isNumeric_of_isDigit hfirst)) h

/-- A number that is typed without a sign and is not too large is an unsigned double. -/
theorem unsigned_of_parse {x : Float} {first : Char} {rest : List Char}
    (hfirst : first.isDigit = true) (h : parse (String.ofList (first :: rest)) = .ok x)
    (hfinite : x.isFinite = true) : Unsigned x :=
  unsigned_of_isSigned_eq_false hfinite (isSigned_of_parse hfirst h)

/-- A finite double with a sign is written as a minus and the text of its
opposite, which has none. -/
theorem shortestText_of_isSigned {x : Float} (hfinite : x.isFinite = true)
    (h : isSigned x = true) : Unsigned (-x) ∧ shortestText x = '-' :: shortestText (-x) := by
  obtain ⟨negative, m, e, hx⟩ := exists_of_isFinite hfinite
  rw [isSigned, hx] at h
  cases h
  have hopposite := Binary.ofFloat_neg hx
  refine ⟨⟨m, e, hopposite⟩, ?_⟩
  rw [shortestText, shortestText, hx, hopposite]
  rfl

end FormulaCalculator.Number
