import FormulaCalculator.Number.Display
import FormulaCalculator.Proofs.DecimalText

/-!
# Decimal texts without superfluous zeros

A number with a fixed number of decimals is its whole part, the point and the
decimals. Taking away the zeros at the end takes away decimals only, and the point
where no decimal is left, so the whole part is always shown in full.
-/

set_option autoImplicit false

namespace FormulaCalculator.Number

variable {whole fraction : List Char} {value places n : Nat}

/-- The decimals behind their point; no point if there are none. -/
def behindPoint : List Char → List Char
  | [] => []
  | first :: rest => '.' :: first :: rest

/-- The digits of a number with the given places that stand before its point. -/
def wholeText (value places : Nat) : List Char :=
  let text := padLeft (places + 1) (digits value)
  text.take (text.length - places)

/-- The digits of a number with the given places that stand behind its point. -/
def fractionText (value places : Nat) : List Char :=
  let text := padLeft (places + 1) (digits value)
  text.drop (text.length - places)

/-- Before the point there are only digits. -/
theorem isDigit_of_mem_wholeText {c : Char} (h : c ∈ wholeText value places) :
    c.isDigit = true :=
  isDigit_of_mem_padLeft (fun _ => isDigit_of_mem_digits) (List.mem_of_mem_take h)

/-- Behind the point there are only digits. -/
theorem isDigit_of_mem_fractionText {c : Char} (h : c ∈ fractionText value places) :
    c.isDigit = true :=
  isDigit_of_mem_padLeft (fun _ => isDigit_of_mem_digits) (List.mem_of_mem_drop h)

/-- Before the point there are the digits that the places behind it leave, but one at
least. -/
theorem length_wholeText (value places : Nat) :
    (wholeText value places).length = max 1 ((digits value).length - places) := by
  unfold wholeText
  dsimp only
  rw [List.length_take, padLeft, List.length_append, List.length_replicate]
  omega

/-- The digits before the point are as many as the whole part needs. -/
theorem length_wholeText_le_iff (hpos : 0 < n) :
    (wholeText value places).length ≤ n ↔ value < 10 ^ (n + places) := by
  rw [length_wholeText, ← Nat.length_toDigits_le_iff (by decide) (by omega), ← digits]
  omega

/-- The point is put between the two parts if there are any places behind it. -/
theorem placePoint_eq (value places : Nat) : placePoint value places =
    wholeText value places ++ if places = 0 then [] else '.' :: fractionText value places := by
  unfold placePoint wholeText fractionText
  dsimp only
  split <;> simp

/-! ## Taking the zeros away -/

/-- Trimming the end of a text is an operation of lists. -/
theorem trimEnd_eq_rdropWhile (c : Char) (text : List Char) :
    trimEnd c text = text.rdropWhile (· == c) := rfl

/-- One more of the characters that are trimmed makes no difference. -/
theorem trimEnd_append_same (c : Char) (text : List Char) :
    trimEnd c (text ++ [c]) = trimEnd c text := by
  rw [trimEnd_eq_rdropWhile, List.rdropWhile_concat_pos _ _ _ (by simp), ← trimEnd_eq_rdropWhile]

/-- Any other character at the end keeps the whole text. -/
theorem trimEnd_append_other {c last : Char} (hlast : last ≠ c) (text : List Char) :
    trimEnd c (text ++ [last]) = text ++ [last] := by
  rw [trimEnd_eq_rdropWhile, List.rdropWhile_concat_neg _ _ _ (by simpa using hlast)]

/-- Where the character does not occur, nothing is trimmed. -/
theorem trimEnd_of_not_mem {c : Char} {text : List Char} (h : c ∉ text) :
    trimEnd c text = text := by
  rw [trimEnd_eq_rdropWhile, List.rdropWhile_eq_self_iff]
  intro hne hlast
  rw [beq_iff_eq] at hlast
  exact h (hlast ▸ List.getLast_mem hne)

/-- No sign or point stands among digits. -/
theorem not_mem_of_isDigit {text : List Char} (hdigits : ∀ c ∈ text, c.isDigit = true) {c : Char}
    (hc : c.isDigit = false) : c ∉ text := by
  intro hmem
  rw [hdigits c hmem] at hc
  cases hc

/-- Zeros at the end of the decimals go, and the point where they were all. -/
theorem trimDecimals_pointed (hwhole : ∀ c ∈ whole, c.isDigit = true)
    (hfraction : ∀ c ∈ fraction, c.isDigit = true) :
    trimDecimals (whole ++ '.' :: fraction) = whole ++ behindPoint (trimEnd '0' fraction) := by
  have hpoint : (whole ++ '.' :: fraction).contains '.' = true := by simp
  rw [trimDecimals, if_pos hpoint]
  induction fraction using List.reverseRecOn with
  | nil =>
    rw [trimEnd_append_other (by decide), trimEnd_append_same,
      trimEnd_of_not_mem (not_mem_of_isDigit hwhole rfl)]
    exact (List.append_nil whole).symm
  | append_singleton fraction last ih =>
    obtain ⟨hdigits, hlast⟩ := List.forall_mem_append.mp hfraction
    have hlast : last.isDigit = true := hlast last List.mem_cons_self
    rw [← List.cons_append, ← List.append_assoc]
    by_cases hzero : last = '0'
    · subst hzero
      rw [trimEnd_append_same, trimEnd_append_same]
      exact ih hdigits (by simp)
    · have hne : last ≠ '.' := by
        rintro rfl
        cases hlast
      rw [trimEnd_append_other hzero, trimEnd_append_other hne, trimEnd_append_other hzero,
        List.append_assoc]
      cases fraction <;> rfl

/-- The whole part is shown in full, and of the decimals what is left without the
zeros at the end. -/
theorem trimDecimals_placePoint (value places : Nat) :
    trimDecimals (placePoint value places) =
      wholeText value places ++ behindPoint (trimEnd '0' (fractionText value places)) := by
  have hwhole (c : Char) (hc : c ∈ wholeText value places) : c.isDigit = true :=
    isDigit_of_mem_wholeText hc
  rw [placePoint_eq]
  split
  · next hplaces =>
    have hempty : fractionText value places = [] := by
      rw [hplaces]
      simp [fractionText]
    have hpoint : (wholeText value places).contains '.' = false := by
      simpa using not_mem_of_isDigit hwhole rfl
    rw [hempty, List.append_nil, trimDecimals, hpoint]
    exact (List.append_nil _).symm
  · exact trimDecimals_pointed hwhole fun _ hc => isDigit_of_mem_fractionText hc

/-- Only digits and a point are shown. -/
theorem not_mem_trimDecimals_placePoint {c : Char} (hdigit : c.isDigit = false) (hpoint : c ≠ '.')
    (value places : Nat) : c ∉ trimDecimals (placePoint value places) := by
  have hwhole : c ∉ wholeText value places :=
    not_mem_of_isDigit (fun _ => isDigit_of_mem_wholeText) hdigit
  have hfraction : c ∉ trimEnd '0' (fractionText value places) := by
    intro hmem
    rw [trimEnd_eq_rdropWhile] at hmem
    have hmem := (List.rdropWhile_prefix _ _).subset hmem
    exact not_mem_of_isDigit (fun _ => isDigit_of_mem_fractionText) hdigit hmem
  rw [trimDecimals_placePoint, List.mem_append, not_or]
  refine ⟨hwhole, ?_⟩
  cases hrest : trimEnd '0' (fractionText value places) with
  | nil => exact List.not_mem_nil
  | cons first rest =>
    rw [hrest] at hfraction
    exact List.not_mem_cons_of_ne_of_not_mem hpoint hfraction

/-! ## Powers of ten -/

/-- A power of ten is written as a one with zeros. -/
theorem digits_ten_pow (n : Nat) : digits (10 ^ n) = '1' :: List.replicate n '0' := by
  induction n with
  | zero => rfl
  | succ n ih =>
    have happend := @Nat.toDigits_append_toDigits 10 (10 ^ n) 0 (by decide) (by positivity)
      (by decide)
    rw [digits, pow_succ, Nat.mul_comm, ← Nat.add_zero (10 * 10 ^ n), ← happend, ← digits, ih,
      List.replicate_succ', List.cons_append]
    rfl

/-- A power of ten is shown as a one and zeros. -/
theorem trimDecimals_ten_pow (n places : Nat) :
    trimDecimals (placePoint (10 ^ (n + places)) places) = '1' :: List.replicate n '0' := by
  have htext : padLeft (places + 1) (digits (10 ^ (n + places))) =
      '1' :: List.replicate n '0' ++ List.replicate places '0' := by
    rw [digits_ten_pow, padLeft, List.length_cons, List.length_replicate,
      show places + 1 - (n + places + 1) = 0 by omega, List.replicate_zero, List.nil_append,
      List.replicate_add, List.cons_append]
  have hcount : ('1' :: List.replicate n '0' ++ List.replicate places '0').length - places =
      ('1' :: List.replicate n '0').length := by
    rw [List.length_append, List.length_replicate, Nat.add_sub_cancel]
  have hwhole : wholeText (10 ^ (n + places)) places = '1' :: List.replicate n '0' := by
    unfold wholeText
    rw [htext]
    dsimp only
    rw [hcount, List.take_left]
  have hfraction : trimEnd '0' (fractionText (10 ^ (n + places)) places) = [] := by
    unfold fractionText
    rw [htext]
    dsimp only
    rw [hcount, List.drop_left, trimEnd_eq_rdropWhile, List.rdropWhile_eq_nil_iff]
    intro c hc
    rw [List.eq_of_mem_replicate hc]
    rfl
  rw [trimDecimals_placePoint, hwhole, hfraction]
  exact List.append_nil _

end FormulaCalculator.Number
