import FormulaCalculator.Proofs.DisplayNotation

/-!
# The width of a number on a display

Whether a number is shown plainly is decided before it is rounded to the decimals. So
a number shown plainly has no more digits before its point than the display allows,
with one exception: a number that is at most half a last decimal below the power of
ten with one digit too many is rounded to that power and shown as it.
-/

set_option autoImplicit false

namespace FormulaCalculator.Number

variable {x : Float} {display : Display} {log10 : Float → Float} {negative : Bool}
  {num den m n : Nat} {e : Int}

/-- A quotient is rounded below an even number exactly if it is more than a half below
it: the half itself goes to the even number. -/
theorem roundQuotient_lt_iff (heven : n % 2 = 0) (hpos : 0 < n) (hden : 0 < den) :
    roundQuotient .toEven num den < n ↔ 2 * num + den < 2 * n * den := by
  have hle := roundQuotient_mul_le .toEven num den
  have hge := le_roundQuotient_mul .toEven num hden
  have htie := @roundQuotient_of_tie num den (n - 1) hden
  obtain ⟨k, rfl⟩ : ∃ k, n = k + 1 := ⟨n - 1, by omega⟩
  rw [Nat.add_sub_cancel] at htie
  generalize roundQuotient .toEven num den = r at hle hge htie ⊢
  constructor
  · intro hlt
    have hbelow : (2 * r + 1) * den ≤ (2 * k + 1) * den := by
      gcongr
      omega
    have hne : 2 * num ≠ (2 * k + 1) * den := fun heq => by
      have hup := htie heq
      omega
    have hexpand : 2 * (k + 1) * den = (2 * k + 1) * den + den := by ring
    omega
  · intro hlt
    by_contra hfar
    have hmul : 2 * (k + 1) * den ≤ 2 * r * den := by
      gcongr
      omega
    omega

namespace Display

/-- How many digits a text has before its point, or before its end. -/
def digitsBeforePoint (text : List Char) : Nat :=
  (text.takeWhile (· != '.')).countP Char.isDigit

/-- The sign and what stands behind the point are not counted as digits before it. -/
theorem digitsBeforePoint_signed {whole : List Char} (hwhole : ∀ c ∈ whole, c.isDigit = true)
    (negative : Bool) (fraction : List Char) :
    digitsBeforePoint (signed negative (whole ++ behindPoint fraction)) = whole.length := by
  have htake : (whole ++ behindPoint fraction).takeWhile (· != '.') = whole := by
    refine (takeWhile_append_stop (fun c hc => ?_) ?_).1
    · rw [bne_iff_ne]
      rintro rfl
      cases hwhole '.' hc
    · cases fraction with
      | nil => exact nofun
      | cons first rest => simp [behindPoint]
  have hcount : whole.countP Char.isDigit = whole.length := List.countP_eq_length.mpr hwhole
  cases negative with
  | true =>
    rw [signed, if_pos rfl, digitsBeforePoint, List.takeWhile_cons_of_pos rfl, htake,
      List.countP_cons_of_neg (by decide), hcount]
  | false => rw [signed, if_neg Bool.false_ne_true, digitsBeforePoint, htake, hcount]

/-- A text without the mark of an exponent is the plain notation of the exact value. -/
theorem textOf_of_not_mem (hx : Binary.ofFloat x = .finite negative m e)
    (hplain : 'E' ∉ display.textOf log10 x) :
    display.textOf log10 x =
      display.plain negative (scaleBy 2 m 1 e).1 (scaleBy 2 m 1 e).2 := by
  rw [mem_textOf_iff_isScientific (isFinite_of_ofFloat hx)] at hplain
  rw [textOf_finite hx, if_neg hplain]

/-- A magnitude is rounded below a power of ten exactly if it is more than half a last
decimal below it, and it is not rounded above the power if it is below it. -/
theorem rounded_lt_iff (hx : Binary.ofFloat x = .finite negative m e) (hn : 0 < n) (places : Nat) :
    let rounded :=
      roundQuotient .toEven ((scaleBy 2 m 1 e).1 * 10 ^ places) (scaleBy 2 m 1 e).2
    (rounded < 10 ^ (n + places) ↔ |exactValue x| + 1 / (2 * 10 ^ places) < 10 ^ n) ∧
      (|exactValue x| < 10 ^ n → rounded ≤ 10 ^ (n + places)) := by
  obtain ⟨hden, hvalue⟩ := scaleBy_two m e
  have heven : 10 ^ (n + places) % 2 = 0 := by
    rw [← Nat.even_iff]
    exact (by decide : Even 10).pow_of_ne_zero (by omega)
  rw [abs_exactValue hx, ← hvalue]
  generalize (scaleBy 2 m 1 e).1 = num
  generalize (scaleBy 2 m 1 e).2 = den at hden
  have hden' : (0 : ℚ) < den := by exact_mod_cast hden
  constructor
  · have hsum : (num / den + 1 / (2 * 10 ^ places) : ℚ) =
        (2 * (num * 10 ^ places) + den) / (2 * 10 ^ places * den) := by
      field_simp
    rw [roundQuotient_lt_iff heven (by positivity) hden, hsum, div_lt_iff₀ (by positivity),
      ← @Nat.cast_lt ℚ]
    push_cast
    rw [pow_add]
    constructor <;> intro h <;> linarith
  · intro hlt
    rw [div_lt_iff₀ hden'] at hlt
    have hlt : num < 10 ^ n * den := by exact_mod_cast hlt
    refine roundQuotient_le hden ?_
    calc num * 10 ^ places ≤ 10 ^ n * den * 10 ^ places := by gcongr
      _ = 10 ^ (n + places) * den := by ring

/-- A number that is shown plainly has no more digits before its point than the
display allows, unless rounding to the decimals carries it to the next power of ten,
which is then shown with one digit more. -/
theorem digitsBeforePoint_textOf (hwhole : 1 ≤ display.wholeDigits) (hfinite : x.isFinite = true)
    (hlog : RoundsLogarithm log10 x) (hplain : 'E' ∉ display.textOf log10 x) :
    (digitsBeforePoint (display.textOf log10 x) ≤ display.wholeDigits ↔
      |exactValue x| + 1 / (2 * 10 ^ display.decimals) < 10 ^ display.wholeDigits) ∧
    (10 ^ display.wholeDigits ≤ |exactValue x| + 1 / (2 * 10 ^ display.decimals) →
      display.textOf log10 x =
        signed (isSigned x) ('1' :: List.replicate display.wholeDigits '0')) := by
  obtain ⟨negative, m, e, hx⟩ := exists_of_isFinite hfinite
  have hsign : isSigned x = negative := by rw [isSigned, hx]
  obtain ⟨hbelow, hle⟩ := rounded_lt_iff hx hwhole display.decimals
  have hle := hle (abs_lt_of_not_mem hwhole hfinite hlog hplain)
  rw [textOf_of_not_mem hx hplain, hsign, ← not_lt, ← not_lt, ← hbelow]
  unfold plain
  dsimp only
  rw [Nat.pow_eq]
  generalize roundQuotient .toEven ((scaleBy 2 m 1 e).1 * 10 ^ display.decimals)
    (scaleBy 2 m 1 e).2 = rounded at hle ⊢
  rw [not_lt, not_lt]
  constructor
  · rw [trimDecimals_placePoint, digitsBeforePoint_signed fun _ => isDigit_of_mem_wholeText]
    exact length_wholeText_le_iff hwhole
  · intro hcarry
    rw [le_antisymm hle hcarry, trimDecimals_ten_pow]
    have hne : ('1' :: List.replicate display.wholeDigits '0' != ['0']) = true := by simp
    rw [hne, Bool.and_true]

/-- The double before ten. -/
def belowTen : Float := Binary.toFloat (.finite false (10 * 2 ^ 49 - 1) (-49))

/-- The double before one. -/
def belowOne : Float := Binary.toFloat (.finite false (2 ^ 53 - 1) (-53))

/-- The double before ten has all bits of its mantissa in use, so it is read back as it
was made. -/
theorem ofFloat_belowTen : Binary.ofFloat belowTen = .finite false (10 * 2 ^ 49 - 1) (-49) :=
  ofFloat_toFloat_of_canonical ⟨by decide, by decide, by decide, by decide, .inl (by decide)⟩
    (by decide) false

/-- The double before one has all bits of its mantissa in use, so it is read back as it
was made. -/
theorem ofFloat_belowOne : Binary.ofFloat belowOne = .finite false (2 ^ 53 - 1) (-53) :=
  ofFloat_toFloat_of_canonical ⟨by decide, by decide, by decide, by decide, .inl (by decide)⟩
    (by decide) false

/-- It is below ten by one unit of its last place. -/
theorem abs_exactValue_belowTen : |exactValue belowTen| = 10 - 1 / 2 ^ 49 := by
  rw [abs_exactValue ofFloat_belowTen]
  norm_num

/-- Below one the doubles are as dense as 2⁻⁵³. -/
theorem gapBefore_one : gapBefore 1 = 1 / 2 ^ 53 := by
  rw [gapBefore, Nat.clog_one_right]
  norm_num

/-- The double is between the powers of ten half a gap above and half a gap below the
double before one. -/
theorem belowTen_bounds :
    (10 : ℝ) ^ ((1 : ℕ) - 3 / 2 * gapBefore 1 : ℝ) < |(exactValue belowTen : ℝ)| ∧
      |(exactValue belowTen : ℝ)| < 10 ^ ((1 : ℕ) - gapBefore 1 / 2 : ℝ) := by
  have hgap : (gapBefore 1 : ℝ) = 1 / 2 ^ 53 := by
    rw [gapBefore_one]
    norm_num
  have hvalue : |(exactValue belowTen : ℝ)| = 10 - 1 / 2 ^ 49 := by
    rw [← Rat.cast_abs, abs_exactValue_belowTen]
    norm_num
  rw [hvalue, hgap, ten_rpow_sub, ten_rpow_sub]
  constructor
  · have hle := @ten_rpow_neg_le (3 / 2 * (1 / 2 ^ 53)) (by positivity)
    calc (10 ^ 1 * 10 ^ (-(3 / 2 * (1 / 2 ^ 53)) : ℝ) : ℝ)
        ≤ 10 ^ 1 * (1 + 2 * (3 / 2 * (1 / 2 ^ 53)))⁻¹ := by gcongr
      _ < 10 - 1 / 2 ^ 49 := by norm_num
  · have hle := @one_sub_le_ten_rpow_neg (1 / 2 ^ 53 / 2) (by positivity)
    calc (10 - 1 / 2 ^ 49 : ℝ) < 10 ^ 1 * (1 - 3 * (1 / 2 ^ 53 / 2)) := by norm_num
      _ ≤ 10 ^ 1 * 10 ^ (-(1 / 2 ^ 53 / 2) : ℝ) := by gcongr

/-- The logarithm of the double before ten is rounded to the double before one, not to
one. -/
theorem roundsLogarithm_belowTen : RoundsLogarithm (fun _ => belowOne) belowTen := by
  obtain ⟨hlow, hhigh⟩ := belowTen_bounds
  have hpos : 0 < |(exactValue belowTen : ℝ)| := (by positivity : (0 : ℝ) < _).trans hlow
  intro _
  refine @isNearest_before belowOne 1 _ (by decide) (by decide) (by decide)
    (isFinite_of_ofFloat ofFloat_belowOne) ?_ ?_ ?_
  · rw [exactValue_eq ofFloat_belowOne, gapBefore_one]
    norm_num
  · rw [Real.lt_logb_iff_rpow_lt (by norm_num) hpos]
    exact hlow
  · rw [Real.logb_lt_iff_lt_rpow (by norm_num) hpos]
    exact hhigh

/-- So it is taken for a number of one digit and shown plainly. -/
theorem not_mem_textOf_belowTen : 'E' ∉ oneDigit.textOf (fun _ => belowOne) belowTen := by
  have hfinite := isFinite_of_ofFloat ofFloat_belowTen
  have habs := abs_exactValue_belowTen
  have hne : exactValue belowTen ≠ 0 := by
    rw [← abs_pos, habs]
    norm_num
  have hexponent : (-oneDigit.threshold).toInt = 0 := by decide
  rw [mem_textOf_iff_isScientific hfinite, isScientific_iff hfinite hne,
    lt_wholeDigitsOf_iff (by decide) hfinite hne roundsLogarithm_belowTen, hexponent,
    powerOfTen_zero, abs_lt_one_iff hfinite, habs]
  exact not_or.mpr ⟨not_le.mpr belowTen_bounds.2, by norm_num⟩

/-- The logarithm of the double before ten is below one, so the double is shown
plainly on a display of one digit; but it is rounded to ten, which has two. -/
theorem digitsBeforePoint_textOf_belowTen :
    (1 ≤ oneDigit.wholeDigits ∧ belowTen.isFinite = true ∧
        RoundsLogarithm (fun _ => belowOne) belowTen ∧
        'E' ∉ oneDigit.textOf (fun _ => belowOne) belowTen) ∧
      oneDigit.textOf (fun _ => belowOne) belowTen = ['1', '0'] ∧
      digitsBeforePoint (oneDigit.textOf (fun _ => belowOne) belowTen) = 2 := by
  have hwhole : 1 ≤ oneDigit.wholeDigits := by decide
  have hfinite := isFinite_of_ofFloat ofFloat_belowTen
  have hcarry := (digitsBeforePoint_textOf hwhole hfinite roundsLogarithm_belowTen
    not_mem_textOf_belowTen).2
  have htext : oneDigit.textOf (fun _ => belowOne) belowTen = ['1', '0'] := by
    rw [hcarry, isSigned, ofFloat_belowTen]
    · rfl
    · rw [abs_exactValue_belowTen]
      norm_num [oneDigit]
  refine ⟨⟨hwhole, hfinite, roundsLogarithm_belowTen, not_mem_textOf_belowTen⟩, htext, ?_⟩
  rw [htext]
  rfl

end Display

end FormulaCalculator.Number
