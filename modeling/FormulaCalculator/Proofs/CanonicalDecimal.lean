import FormulaCalculator.Proofs.TrimmedDecimals

/-!
# Canonical decimal texts

A decimal is written canonically if no zero can be left out of its digits and a zero
has no sign. A whole number divided by a power of ten is written like that once the
zeros at the end of its decimals are taken away: its digits start with a zero only
if that zero is its whole part.
-/

set_option autoImplicit false

namespace FormulaCalculator.Number

variable {places n : Nat}

/-- A decimal that is written without superfluous zeros, with at most the given number
of decimals. -/
structure CanonicalDecimal (places : Nat) where
  negative : Bool
  /-- The digits before the point. -/
  whole : List Char
  /-- The digits behind the point, which is left out if there are none. -/
  fraction : List Char
  whole_ne_nil : whole ≠ []
  isDigit_whole : ∀ c ∈ whole, c.isDigit = true
  eq_zero_of_head? : whole.head? = some '0' → whole = ['0']
  isDigit_fraction : ∀ c ∈ fraction, c.isDigit = true
  getLast?_fraction_ne : fraction.getLast? ≠ some '0'
  length_fraction_le : fraction.length ≤ places
  ofDigits_ne_zero : negative = true → ofDigits (whole ++ fraction) ≠ 0

/-- A number with a sign in front. -/
def withSign (negative : Bool) (q : ℚ) : ℚ := if negative then -q else q

/-- A sign does not change how large a number is. -/
theorem abs_withSign (negative : Bool) (q : ℚ) : |withSign negative q| = |q| := by
  cases negative with
  | true => exact abs_neg q
  | false => rfl

/-- A factor can be put under the sign. -/
theorem withSign_mul (negative : Bool) (q r : ℚ) :
    withSign negative q * r = withSign negative (q * r) := by
  cases negative with
  | true => exact neg_mul q r
  | false => rfl

namespace CanonicalDecimal

/-- The text of a decimal. -/
def text (d : CanonicalDecimal places) : List Char :=
  signed d.negative (d.whole ++ behindPoint d.fraction)

/-- The number that a decimal spells. -/
def value (d : CanonicalDecimal places) : ℚ :=
  withSign d.negative (ofDigits (d.whole ++ d.fraction) / 10 ^ d.fraction.length)

/-- A zero has no sign. -/
theorem text_ne (d : CanonicalDecimal places) : d.text ≠ ['-', '0'] := by
  intro htext
  have hdigits := d.isDigit_whole
  have hne := d.whole_ne_nil
  have hzero := d.ofDigits_ne_zero
  unfold text at htext
  obtain ⟨first, rest, hwhole⟩ := List.exists_cons_of_ne_nil hne
  rw [hwhole] at htext hdigits hzero
  cases hsign : d.negative with
  | false =>
    rw [hsign, signed, if_neg Bool.false_ne_true] at htext
    obtain rfl : first = '-' := (List.cons.inj htext).1
    cases hdigits '-' List.mem_cons_self
  | true =>
    rw [hsign, signed, if_pos rfl] at htext
    obtain ⟨rfl, hrest⟩ := List.cons.inj (List.cons.inj htext).2
    obtain ⟨rfl, hpoint⟩ := List.append_eq_nil_iff.mp hrest
    have hfraction : d.fraction = [] := by
      cases hcases : d.fraction with
      | nil => rfl
      | cons first rest =>
        rw [hcases] at hpoint
        cases hpoint
    rw [hfraction] at hzero
    exact hzero hsign rfl

end CanonicalDecimal

/-! ## The digits of a number -/

/-- Only the number zero starts with a zero. -/
theorem head?_digits_ne (hpos : 0 < n) : (digits n).head? ≠ some '0' := by
  induction n using Nat.strongRecOn with
  | ind n ih =>
    rw [digits, Nat.toDigits_eq_if (by decide)]
    split
    · rw [List.head?_cons, ne_eq, Option.some_inj, Nat.digitChar_eq_zero]
      exact hpos.ne'
    · next hlarge =>
      rw [List.head?_append_of_ne_nil _ Nat.toDigits_ne_nil]
      exact ih (n / 10) (by omega) (by omega)

/-- Each zero behind a row of digits makes its value ten times as large. -/
theorem ofDigits_append_zeros (text : List Char) (count : Nat) :
    ofDigits (text ++ List.replicate count '0') = ofDigits text * 10 ^ count := by
  rw [ofDigits, Nat.ofDigitChars_append, Nat.ofDigitChars_replicate_zero, Nat.mul_comm]
  rfl

/-- The two parts of a number with a point are the digits of the whole value, with zeros
in front if there are fewer than places. -/
theorem wholeText_append_fractionText (value places : Nat) :
    wholeText value places ++ fractionText value places = padLeft (places + 1) (digits value) :=
  List.take_append_drop _ _

/-- There are as many digits behind the point as there are places. -/
theorem length_fractionText (value places : Nat) : (fractionText value places).length = places := by
  have hlength := lt_length_padLeft places (digits value)
  unfold fractionText
  rw [List.length_drop]
  omega

/-- There is always a digit before the point. -/
theorem wholeText_ne_nil (value places : Nat) : wholeText value places ≠ [] := by
  rw [← List.length_pos_iff, length_wholeText]
  omega

/-- The whole part starts with a zero only if it is zero. -/
theorem wholeText_eq_zero (value places : Nat) (h : (wholeText value places).head? = some '0') :
    wholeText value places = ['0'] := by
  rcases Nat.lt_or_ge places (digits value).length with hlong | hshort
  · -- Nothing is filled up, so the whole part starts as the digits do.
    have hhead : (digits value).head? = some '0' := by
      unfold wholeText padLeft at h
      dsimp only at h
      rw [Nat.sub_eq_zero_of_le hlong, List.replicate_zero, List.nil_append,
        List.head?_take, if_neg (by omega)] at h
      exact h
    have hzero : value = 0 := by
      by_contra hne
      exact head?_digits_ne (Nat.pos_of_ne_zero hne) hhead
    subst hzero
    have hplaces : places = 0 := by
      have hone : (digits 0).length = 1 := rfl
      omega
    subst hplaces
    rfl
  · have hone : (wholeText value places).length = 1 := by
      rw [length_wholeText]
      omega
    obtain ⟨first, hfirst⟩ := List.length_eq_one_iff.mp hone
    rw [hfirst] at h ⊢
    rw [Option.some_inj.mp h]

/-- The decimals without the zeros at their end spell the same number. -/
theorem ofDigits_trimmed (value places : Nat) :
    let fraction := trimEnd '0' (fractionText value places)
    fraction.length ≤ places ∧
      ofDigits (wholeText value places ++ fraction) * 10 ^ (places - fraction.length) = value := by
  intro fraction
  obtain ⟨count, hcount⟩ := trimEnd_append_replicate '0' (fractionText value places)
  have hlength : fraction.length + count = places := by
    have hsum := congrArg List.length hcount
    rw [length_fractionText, List.length_append, List.length_replicate] at hsum
    exact hsum.symm
  refine ⟨by omega, ?_⟩
  rw [show places - fraction.length = count by omega, ← ofDigits_append_zeros, List.append_assoc,
    ← hcount, wholeText_append_fractionText, ofDigits_padLeft, ofDigits_digits]

/-- A text does not end with what has been trimmed from its end. -/
theorem getLast?_trimEnd_ne (c : Char) (text : List Char) : (trimEnd c text).getLast? ≠ some c := by
  rw [trimEnd_eq_rdropWhile]
  intro hlast
  have hne : text.rdropWhile (· == c) ≠ [] := by
    intro hnil
    rw [hnil] at hlast
    cases hlast
  rw [List.getLast?_eq_some_getLast hne, Option.some_inj] at hlast
  exact List.rdropWhile_last_not _ _ hne (by simpa using hlast)

/-! ## The canonical decimal of a quotient by a power of ten -/

namespace CanonicalDecimal

/-- The decimal `value / 10 ^ places` with a sign, which a zero does not get. -/
def ofScaled (negative : Bool) (value places : Nat) : CanonicalDecimal places where
  negative := negative && value != 0
  whole := wholeText value places
  fraction := trimEnd '0' (fractionText value places)
  whole_ne_nil := wholeText_ne_nil value places
  isDigit_whole _ := isDigit_of_mem_wholeText
  eq_zero_of_head? := wholeText_eq_zero value places
  isDigit_fraction _ hc :=
    isDigit_of_mem_fractionText ((List.rdropWhile_prefix _ _).subset hc)
  getLast?_fraction_ne := getLast?_trimEnd_ne '0' _
  length_fraction_le := (ofDigits_trimmed value places).1
  ofDigits_ne_zero hsign hzero := by
    have hvalue := (ofDigits_trimmed value places).2
    rw [hzero, Nat.zero_mul] at hvalue
    simp [← hvalue] at hsign

/-- The decimal has the value of the scaled integer: trimming zeros behind the point loses
nothing. -/
theorem value_ofScaled (negative : Bool) (value places : Nat) :
    (ofScaled negative value places).value = withSign negative (value / 10 ^ places) := by
  obtain ⟨hlength, hvalue⟩ := ofDigits_trimmed value places
  change withSign (negative && value != 0)
    (ofDigits (wholeText value places ++ trimEnd '0' (fractionText value places)) /
      10 ^ (trimEnd '0' (fractionText value places)).length) = _
  generalize wholeText value places ++ trimEnd '0' (fractionText value places) = text at hvalue ⊢
  generalize (trimEnd '0' (fractionText value places)).length = count at hlength hvalue ⊢
  have hquotient : (value / 10 ^ places : ℚ) = ofDigits text / 10 ^ count := by
    obtain ⟨more, rfl⟩ := Nat.exists_eq_add_of_le hlength
    rw [← hvalue, Nat.add_sub_cancel_left, pow_add]
    push_cast
    field_simp
  rw [← hquotient]
  by_cases hzero : value = 0
  · subst hzero
    cases negative <;> simp [withSign]
  · rw [bne_iff_ne.mpr hzero, Bool.and_true]

/-- The decimal is written as the display writes it: the point is put in, zeros are
trimmed, and a minus stands in front of what is negative and not zero. -/
theorem text_ofScaled (negative : Bool) (value places : Nat) :
    (ofScaled negative value places).text =
      signed (negative && value != 0) (trimDecimals (placePoint value places)) := by
  rw [trimDecimals_placePoint]
  rfl

example : (ofScaled true 1250 3).text = ['-', '1', '.', '2', '5'] := by decide

/-- A number without decimals is its digits. -/
theorem text_ofScaled_zero (negative : Bool) (value : Nat) :
    (ofScaled negative value 0).text = signed (negative && value != 0) (digits value) := by
  have hdigits : padLeft 1 (digits value) = digits value := by
    have hpos : 0 < (digits value).length := Nat.length_toDigits_pos
    rw [padLeft, show 1 - (digits value).length = 0 by omega, List.replicate_zero, List.nil_append]
  have hpoint : (digits value).contains '.' = false := by
    simpa using not_mem_of_isDigit (fun _ => @isDigit_of_mem_digits value _) rfl
  rw [text_ofScaled, placePoint, if_pos rfl, Nat.zero_add, hdigits, Nat.sub_zero, List.take_length,
    trimDecimals, hpoint]
  rfl

end CanonicalDecimal

/-- Only the number zero is shown as a zero. -/
theorem trimDecimals_placePoint_eq_zero_iff (value places : Nat) :
    trimDecimals (placePoint value places) = ['0'] ↔ value = 0 := by
  rw [trimDecimals_placePoint]
  constructor
  · intro htext
    have hvalue := (ofDigits_trimmed value places).2
    have hwhole : wholeText value places = ['0'] := by
      refine wholeText_eq_zero value places ?_
      rw [← List.head?_append_of_ne_nil _ (wholeText_ne_nil value places), htext]
      rfl
    -- A digit that is left behind the point would be seen in the text.
    have hfraction : trimEnd '0' (fractionText value places) = [] := by
      cases hrest : trimEnd '0' (fractionText value places) with
      | nil => rfl
      | cons first rest =>
        rw [hwhole, hrest] at htext
        cases htext
    rw [hwhole, hfraction] at hvalue
    exact hvalue.symm.trans (Nat.zero_mul _)
  · rintro rfl
    have hzeros : padLeft (places + 1) (digits 0) = '0' :: List.replicate places '0' := by
      rw [padLeft, show digits 0 = ['0'] from rfl, List.length_singleton, Nat.add_sub_cancel,
        ← List.replicate_one, ← List.replicate_add, Nat.add_comm, List.replicate_add]
      rfl
    have hwhole : wholeText 0 places = ['0'] := by
      refine wholeText_eq_zero 0 places ?_
      rw [← List.head?_append_of_ne_nil _ (wholeText_ne_nil 0 places),
        wholeText_append_fractionText, hzeros]
      rfl
    have hfraction : fractionText 0 places = List.replicate places '0' := by
      have hsplit := wholeText_append_fractionText 0 places
      rw [hwhole, hzeros] at hsplit
      exact (List.cons.inj hsplit).2
    have htrim : trimEnd '0' (List.replicate places '0') = [] := by
      rw [trimEnd_eq_rdropWhile, List.rdropWhile_eq_nil_iff]
      intro c hc
      rw [List.eq_of_mem_replicate hc]
      rfl
    rw [hwhole, hfraction, htrim]
    rfl

end FormulaCalculator.Number
