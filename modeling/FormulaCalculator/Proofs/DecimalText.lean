import FormulaCalculator.Proofs.Lexing
import Mathlib

/-!
# Decimal texts that are read back

An unsigned number is written with digits and, if it has decimals, a point and
more digits. Such a text is read as the number that its digits spell, and the
lexer takes all of it where no character follows that could go on with it.
-/

set_option autoImplicit false

namespace FormulaCalculator.Number

/-- The text is made of the digits in front of the point and those behind it, and
has a point if there are any behind it. -/
inductive IsDecimal : List Char → List Char → List Char → Prop where
  | integer {whole : List Char} : whole ≠ [] → (∀ c ∈ whole, c.isDigit = true) →
      IsDecimal whole whole []
  | pointed {whole fraction : List Char} : whole ≠ [] → fraction ≠ [] →
      (∀ c ∈ whole, c.isDigit = true) → (∀ c ∈ fraction, c.isDigit = true) →
      IsDecimal (whole ++ '.' :: fraction) whole fraction

/-- A natural number is written with nothing but digits. -/
theorem isDigit_of_mem_digits {n : Nat} {c : Char} (h : c ∈ digits n) : c.isDigit = true :=
  Nat.isDigit_of_mem_toDigits (by decide) (by decide) h

/-- A whole number is a decimal without a point. -/
theorem isDecimal_digits (n : Nat) : IsDecimal (digits n) (digits n) [] :=
  .integer Nat.toDigits_ne_nil fun _ h => isDigit_of_mem_digits h

/-- Padding with zeros puts only digits in front of digits. -/
theorem isDigit_of_mem_padLeft {width : Nat} {text : List Char} (h : ∀ c ∈ text, c.isDigit = true)
    {c : Char} (hc : c ∈ padLeft width text) : c.isDigit = true := by
  rcases List.mem_append.mp hc with hzero | htext
  · rw [(List.mem_replicate.mp hzero).2]
    rfl
  · exact h c htext

/-- Padded digits are enough for the places behind the point and one before it. -/
theorem lt_length_padLeft (places : Nat) (text : List Char) :
    places < (padLeft (places + 1) text).length := by
  rw [padLeft, List.length_append, List.length_replicate]
  omega

/-- A point in a row of digits makes a decimal with the same digits, and with as many
behind the point as there are places. -/
theorem isDecimal_placePoint (value : Nat) {places : Nat} (hplaces : 0 < places) :
    ∃ whole fraction, IsDecimal (placePoint value places) whole fraction ∧
      ofDigits (whole ++ fraction) = value ∧ fraction.length = places := by
  have hlength := lt_length_padLeft places (digits value)
  have hdigits (c : Char) (hc : c ∈ padLeft (places + 1) (digits value)) : c.isDigit = true :=
    isDigit_of_mem_padLeft (fun _ => isDigit_of_mem_digits) hc
  have hvalue : ofDigits (padLeft (places + 1) (digits value)) = value := by
    rw [ofDigits_padLeft, ofDigits_digits]
  unfold placePoint
  dsimp only
  generalize padLeft (places + 1) (digits value) = text at hlength hdigits hvalue ⊢
  rw [if_neg (by omega)]
  refine ⟨text.take (text.length - places), text.drop (text.length - places), .pointed ?_ ?_ ?_ ?_,
    ?_, ?_⟩
  · exact List.ne_nil_of_length_pos (by rw [List.length_take]; omega)
  · exact List.ne_nil_of_length_pos (by rw [List.length_drop]; omega)
  · exact fun c hc => hdigits c (List.mem_of_mem_take hc)
  · exact fun c hc => hdigits c (List.mem_of_mem_drop hc)
  · rw [List.take_append_drop, hvalue]
  · rw [List.length_drop]
    omega

/-- A number in positional notation has as many decimals as its exponent is
below zero. -/
theorem isDecimal_positional (value : Nat) (exponent : Int) :
    ∃ whole fraction, IsDecimal (positional value exponent) whole fraction ∧
      ofDigits (whole ++ fraction) = value * 10 ^ exponent.toNat ∧
      fraction.length = (-exponent).toNat := by
  unfold positional
  split
  · next hexponent =>
    refine ⟨_, [], isDecimal_digits _, ?_, ?_⟩
    · rw [List.append_nil, ofDigits_digits, Nat.pow_eq]
    · rw [List.length_nil]
      omega
  · next hexponent =>
    obtain ⟨whole, fraction, htext, hvalue, hlength⟩ :=
      @isDecimal_placePoint value (-exponent).toNat (by omega)
    refine ⟨whole, fraction, htext, ?_, hlength⟩
    rw [hvalue, show exponent.toNat = 0 by omega, Nat.pow_zero, Nat.mul_one]

/-- A digit is its own lower case. -/
theorem toLower_of_isDigit {c : Char} (h : c.isDigit = true) : c.toLower = c := by
  rw [Char.toLower, dif_neg]
  rintro ⟨hlow, -⟩
  simp only [Char.isDigit, Bool.and_eq_true, decide_eq_true_eq] at h
  exact absurd (UInt32.le_trans hlow h.2) (by decide)

/-- No name of a special value starts with a digit. -/
theorem named?_of_isDigit {negative : Bool} {first : Char} {rest : List Char}
    (h : first.isDigit = true) : Literal.named? negative (first :: rest) = none := by
  have hi : first ≠ 'i' := by
    rintro rfl
    cases h
  have hn : first ≠ 'n' := by
    rintro rfl
    cases h
  simp only [Literal.named?, List.map_cons, toLower_of_isDigit h]
  split
  · next heq => exact absurd (List.cons.inj heq).1 hi
  · next heq => exact absurd (List.cons.inj heq).1 hi
  · next heq => exact absurd (List.cons.inj heq).1 hn
  · rfl

/-- A literal that starts with a digit has no sign, so it is a magnitude. -/
theorem ofChars?_of_isDigit {first : Char} {rest : List Char} (h : first.isDigit = true) :
    Literal.ofChars? (first :: rest) = Literal.magnitude? false (first :: rest) := by
  unfold Literal.ofChars?
  split
  · next heq =>
    cases heq
    cases h
  · next heq =>
    cases heq
    cases h
  · rfl

/-- The digits are among the characters that a run of keys takes for a number. -/
theorem isNumeric_of_isDigit {c : Char} (h : c.isDigit = true) : Text.isNumeric c = true := by
  rw [Text.isNumeric, h, Bool.true_or]

/-- A text that starts with a digit or a point has no sign and is no name. -/
theorem ofChars?_of_isNumeric {first : Char} {rest : List Char}
    (h : Text.isNumeric first = true) :
    Literal.ofChars? (first :: rest) = Literal.decimal? false (first :: rest) := by
  rw [Text.isNumeric, Bool.or_eq_true, beq_iff_eq] at h
  rcases h with hdigit | rfl
  · rw [ofChars?_of_isDigit hdigit, Literal.magnitude?, named?_of_isDigit hdigit]
    rfl
  · rfl

/-- Where no mark of an exponent stands, there is no exponent to split off. -/
theorem splitExponent_eq {rest : List Char} (h : ∀ c ∈ rest.head?, c ≠ 'e' ∧ c ≠ 'E') :
    Lexeme.splitExponent rest = ([], rest) := by
  cases rest with
  | nil => rfl
  | cons first rest =>
    have hmark : ['e', 'E'].contains first = false := by simpa using h first rfl
    simp only [Lexeme.splitExponent, hmark, Bool.false_and, Bool.false_eq_true, if_false]

namespace IsDecimal

variable {text whole fraction rest : List Char}

/-- A decimal has a digit before its point. -/
theorem whole_ne_nil (h : IsDecimal text whole fraction) : whole ≠ [] := by
  cases h <;> assumption

/-- Before the point of a decimal there are only digits. -/
theorem isDigit_whole (h : IsDecimal text whole fraction) : ∀ c ∈ whole, c.isDigit = true := by
  cases h <;> assumption

/-- A decimal starts with a digit and not with its point. -/
theorem exists_cons (h : IsDecimal text whole fraction) :
    ∃ first rest, text = first :: rest ∧ first.isDigit = true := by
  have hdigits := h.isDigit_whole
  have hne := h.whole_ne_nil
  cases whole with
  | nil => exact absurd rfl hne
  | cons first more =>
    have hfirst := hdigits first List.mem_cons_self
    cases h with
    | integer => exact ⟨first, more, rfl, hfirst⟩
    | pointed => exact ⟨first, _, rfl, hfirst⟩

/-- A decimal is read as the value of all its digits, scaled down by those behind the
point. -/
theorem decimal?_eq (h : IsDecimal text whole fraction) :
    Literal.decimal? false text =
      some (Literal.scaled false (ofDigits (whole ++ fraction)) (-fraction.length)) := by
  have hempty : whole.isEmpty = false := by
    simpa using h.whole_ne_nil
  cases h with
  | integer hne hdigits =>
    obtain ⟨htake, hdrop⟩ := @takeWhile_append_stop Char.isDigit text [] hdigits (by simp)
    rw [List.append_nil] at htake hdrop
    simp [Literal.decimal?, Literal.spanDigits, Literal.exponent?, htake, hdrop, hempty]
  | @pointed whole fraction hne hne' hdigits hdigits' =>
    obtain ⟨htake, hdrop⟩ := @takeWhile_append_stop Char.isDigit whole ('.' :: fraction) hdigits
      (by simp)
    obtain ⟨htake', hdrop'⟩ := @takeWhile_append_stop Char.isDigit fraction [] hdigits' (by simp)
    rw [List.append_nil] at htake' hdrop'
    simp [Literal.decimal?, Literal.spanDigits, Literal.exponent?, htake, hdrop, htake', hdrop',
      hempty]

/-- A text that starts with a digit has no sign and is no name. -/
theorem ofChars?_eq (h : IsDecimal text whole fraction) :
    Literal.ofChars? text =
      some (Literal.scaled false (ofDigits (whole ++ fraction)) (-fraction.length)) := by
  have hdecimal := h.decimal?_eq
  obtain ⟨first, rest, rfl, hdigit⟩ := h.exists_cons
  have hnamed := @named?_of_isDigit false first rest hdigit
  rw [ofChars?_of_isDigit hdigit, Literal.magnitude?, hnamed, hdecimal]
  rfl

/-- A decimal is not empty. -/
theorem ne_nil (h : IsDecimal text whole fraction) : text ≠ [] := by
  obtain ⟨first, rest, rfl, -⟩ := h.exists_cons
  exact List.cons_ne_nil first rest

/-- The text of a decimal is a literal, with the double nearest to its value. -/
theorem parse_ofList (h : IsDecimal text whole fraction) :
    parse (String.ofList text) =
      .ok (Literal.scaled false (ofDigits (whole ++ fraction)) (-fraction.length)).toFloat := by
  have hne : (String.ofList text).isEmpty = false := by
    rw [String.isEmpty_eq_false_iff]
    simpa using h.ne_nil
  rw [parse, hne, String.toList_ofList, h.ofChars?_eq]
  rfl

/-- A decimal is written with digits and points only. -/
theorem all_isNumeric (h : IsDecimal text whole fraction) :
    text.all Text.isNumeric = true := by
  have hrun {run : List Char} (hdigits : ∀ c ∈ run, c.isDigit = true) :
      run.all Text.isNumeric = true := by
    rw [List.all_eq_true]
    exact fun c hc => isNumeric_of_isDigit (hdigits c hc)
  cases h with
  | integer _ hdigits => exact hrun hdigits
  | pointed _ _ hdigits hdigits' =>
    rw [List.all_append, hrun hdigits, List.all_cons, hrun hdigits']
    rfl

/-- A decimal has one point at most, so as a run of keys it is one number. -/
theorem count_point_le (h : IsDecimal text whole fraction) : text.count '.' ≤ 1 := by
  have hrun {run : List Char} (hdigits : ∀ c ∈ run, c.isDigit = true) : run.count '.' = 0 := by
    rw [List.count_eq_zero]
    intro hmem
    exact absurd (hdigits '.' hmem) (by decide)
  cases h with
  | integer _ hdigits =>
    rw [hrun hdigits]
    exact Nat.zero_le 1
  | pointed _ _ hdigits hdigits' =>
    rw [List.count_append, hrun hdigits, List.count_cons_self, hrun hdigits']

/-- The lexer takes the whole of a decimal text where nothing follows that could
go on with it. -/
theorem splitNumber_eq (h : IsDecimal text whole fraction)
    (hrest : ∀ c ∈ rest.head?, c.isDigit = false ∧ c ≠ '.' ∧ c ≠ 'e' ∧ c ≠ 'E') :
    Lexeme.splitNumber (text ++ rest) = (text, rest) := by
  have hstop (c : Char) (hc : c ∈ rest.head?) : c.isDigit = false := (hrest c hc).1
  have hexponent : Lexeme.splitExponent rest = ([], rest) :=
    splitExponent_eq fun c hc => (hrest c hc).2.2
  cases h with
  | integer hne hdigits =>
    obtain ⟨htake, hdrop⟩ := takeWhile_append_stop hdigits hstop
    have hfraction : Lexeme.splitFraction rest = ([], rest) := by
      cases rest with
      | nil => rfl
      | cons first rest =>
        have hpoint : (first == '.') = false := by simpa using (hrest first rfl).2.1
        rw [Lexeme.splitFraction, hpoint]
        exact hexponent
    simp [Lexeme.splitNumber, htake, hdrop, hfraction]
  | @pointed whole fraction hne hne' hdigits hdigits' =>
    obtain ⟨htake, hdrop⟩ := @takeWhile_append_stop Char.isDigit whole ('.' :: fraction ++ rest)
      hdigits (by simp)
    obtain ⟨htake', hdrop'⟩ := takeWhile_append_stop hdigits' hstop
    rw [List.cons_append] at htake hdrop
    simp [Lexeme.splitNumber, Lexeme.splitFraction, htake, hdrop, htake', hdrop', hexponent, hne']

end IsDecimal

end FormulaCalculator.Number
