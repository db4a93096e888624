import FormulaCalculator.Proofs.DecimalText

/-!
# Numbers as they are typed

A number is typed with digits, a fraction and an exponent, of which the last two
may be missing: a fraction is a point with digits behind it, an exponent a mark
with an optional sign and digits. Every such literal has a value, and the lexer
takes the longest one that stands in front of a text.

To be the longest is said without the lexer. A literal is unique by it, so what
the lexer takes does not depend on what stands behind the end of the literal.
-/

set_option autoImplicit false

namespace FormulaCalculator

namespace Lexeme

/-- Decimal digits, at least one. -/
structure IsDigits (text : List Char) : Prop where
  ne_nil : text ≠ []
  isDigit : ∀ c ∈ text, c.isDigit = true

/-- A sign, or none. -/
inductive IsSign : List Char → Prop where
  | none : IsSign []
  | plus : IsSign ['+']
  | minus : IsSign ['-']

/-- A point and digits, or nothing. -/
inductive IsFraction : List Char → Prop where
  | none : IsFraction []
  | some {digits : List Char} : IsDigits digits → IsFraction ('.' :: digits)

/-- A mark, a sign and digits, or nothing. -/
inductive IsExponent : List Char → Prop where
  | none : IsExponent []
  | some {mark : Char} {sign digits : List Char} : ['e', 'E'].contains mark = true →
      IsSign sign → IsDigits digits → IsExponent (mark :: sign ++ digits)

/-- An unsigned number as it is typed. -/
inductive IsNumeral : List Char → Prop where
  | intro {whole fraction exponent : List Char} : IsDigits whole → IsFraction fraction →
      IsExponent exponent → IsNumeral (whole ++ (fraction ++ exponent))

/-- The text starts with the given one, which is of the kind, and with no longer
one that is. -/
structure IsLongest (kind : List Char → Prop) (found text : List Char) : Prop where
  isKind : kind found
  isPrefix : found <+: text
  longest : ∀ candidate, kind candidate → candidate <+: text → candidate.length ≤ found.length

variable {text run part tail digits fraction exponent : List Char}

/-- The longest one is the only one that is longest. -/
theorem IsLongest.unique {kind : List Char → Prop} {found other : List Char}
    (h : IsLongest kind found text) (h' : IsLongest kind other text) : found = other := by
  have hlength : found.length = other.length :=
    Nat.le_antisymm (h'.longest found h.isKind h.isPrefix) (h.longest other h'.isKind h'.isPrefix)
  exact (List.prefix_of_prefix_length_le h.isPrefix h'.isPrefix
    (Nat.le_of_eq hlength)).eq_of_length hlength

/-- A run of digits goes on with the digits behind it. -/
theorem IsDigits.takeWhile_append (h : IsDigits digits) (tail : List Char) :
    (digits ++ tail).takeWhile Char.isDigit = digits ++ tail.takeWhile Char.isDigit :=
  List.takeWhile_append_of_pos h.isDigit

/-- Where digits stand, the run of digits is not empty. -/
theorem IsDigits.isEmpty_takeWhile_append (h : IsDigits digits) (tail : List Char) :
    ((digits ++ tail).takeWhile Char.isDigit).isEmpty = false := by
  rw [h.takeWhile_append]
  simp [h.ne_nil]

/-- A run of digits that is not empty is digits. -/
theorem isDigits_takeWhile (h : (text.takeWhile Char.isDigit).isEmpty = false) :
    IsDigits (text.takeWhile Char.isDigit) :=
  ⟨by simpa using h, List.all_eq_true.mp List.all_takeWhile⟩

/-- What is split off as a sign is one, or nothing. -/
theorem isSign_splitSign (text : List Char) : IsSign (splitSign text).1 := by
  unfold splitSign
  split
  · exact .none
  · next first rest =>
    split
    · next hsign =>
      rcases (by simpa using hsign : first = '+' ∨ first = '-') with rfl | rfl
      · exact .plus
      · exact .minus
    · exact .none

/-- What is split off as an exponent is one, or nothing where the mark has no digits. -/
theorem isExponent_splitExponent (text : List Char) : IsExponent (splitExponent text).1 := by
  unfold splitExponent
  split
  · exact .none
  · next mark text =>
    dsimp only
    split
    · next h =>
      rw [Bool.and_eq_true, Bool.not_eq_true'] at h
      exact .some h.1 (isSign_splitSign text) (isDigits_takeWhile h.2)
    · exact .none

/-- What is split off behind the digits is a fraction and an exponent, each of which may
be missing. -/
theorem exists_splitFraction_eq (text : List Char) : ∃ fraction exponent,
    IsFraction fraction ∧ IsExponent exponent ∧ (splitFraction text).1 = fraction ++ exponent := by
  unfold splitFraction
  split
  · exact ⟨[], [], .none, .none, rfl⟩
  · next point text =>
    split
    · next hpoint =>
      obtain rfl : point = '.' := by simpa using hpoint
      split
      · exact ⟨[], [], .none, .none, rfl⟩
      · next hdigits =>
        exact ⟨_, _, .some (isDigits_takeWhile (by simpa using hdigits)),
          isExponent_splitExponent _, rfl⟩
    · exact ⟨[], _, .none, isExponent_splitExponent _, rfl⟩

/-- What the lexer takes of a text that starts with a digit is a number. -/
theorem isNumeral_splitNumber {first : Char} {rest : List Char} (h : first.isDigit = true) :
    IsNumeral (splitNumber (first :: rest)).1 := by
  obtain ⟨fraction, exponent, hfraction, hexponent, heq⟩ :=
    exists_splitFraction_eq ((first :: rest).dropWhile Char.isDigit)
  have hwhole : IsDigits ((first :: rest).takeWhile Char.isDigit) :=
    isDigits_takeWhile (by rw [List.takeWhile_cons_of_pos h]; rfl)
  unfold splitNumber
  dsimp only
  rw [heq]
  exact .intro hwhole hfraction hexponent

/-- A run of a class and a part that does not go on with it are taken one after
the other. -/
theorem run_append_prefix {inClass : Char → Bool} (split : List Char → List Char)
    (hrun : ∀ c ∈ run, inClass c = true) (hpart : ∀ c ∈ part.head?, inClass c = false)
    (hsplit : part <+: split (part ++ tail)) :
    run ++ part <+: (run ++ (part ++ tail)).takeWhile inClass ++
      split ((run ++ (part ++ tail)).dropWhile inClass) := by
  cases part with
  | nil =>
    rw [List.append_nil, List.takeWhile_append_of_pos hrun, List.append_assoc]
    exact List.prefix_append run _
  | cons first part =>
    obtain ⟨htake, hdrop⟩ := @takeWhile_append_stop inClass run (first :: part ++ tail) hrun hpart
    rw [htake, hdrop, List.prefix_append_right_inj]
    exact hsplit

/-- An exponent starts with its mark, which is neither a digit nor a point. -/
theorem IsExponent.head? (h : IsExponent exponent) :
    ∀ c ∈ exponent.head?, c.isDigit = false ∧ (c == '.') = false := by
  cases h with
  | none => simp
  | @some mark _ _ hmark _ _ =>
    rcases (by simpa using hmark : mark = 'e' ∨ mark = 'E') with rfl | rfl <;>
    · intro c hc
      obtain rfl := Option.some.inj hc
      decide

/-- In front of digits a sign is split off, and nothing else. -/
theorem splitSign_eq {sign : List Char} (hsign : IsSign sign) (hdigits : IsDigits digits) :
    splitSign (sign ++ (digits ++ tail)) = (sign, digits ++ tail) := by
  cases hsign with
  | plus | minus => rfl
  | none =>
    obtain ⟨first, more, rfl⟩ := List.exists_cons_of_ne_nil hdigits.ne_nil
    have hfirst := hdigits.isDigit first List.mem_cons_self
    have hnot : ['+', '-'].contains first = false := by
      rw [← Bool.not_eq_true]
      intro hsign
      rcases (by simpa using hsign : first = '+' ∨ first = '-') with rfl | rfl <;> cases hfirst
    simp only [List.nil_append, List.cons_append, splitSign, hnot, Bool.false_eq_true, if_false]

/-- The lexer takes no shorter exponent than there is. -/
theorem IsExponent.prefix_splitExponent (h : IsExponent exponent) (tail : List Char) :
    exponent <+: (splitExponent (exponent ++ tail)).1 := by
  cases h with
  | none => exact List.nil_prefix
  | @some mark sign digits hmark hsign hdigits =>
    have hne := hdigits.isEmpty_takeWhile_append tail
    have hsplit : (splitExponent (mark :: sign ++ digits ++ tail)).1 =
        mark :: sign ++ (digits ++ tail).takeWhile Char.isDigit := by
      rw [List.append_assoc, List.cons_append, splitExponent, splitSign_eq hsign hdigits]
      simp only [hmark, hne, Bool.not_false, Bool.and_self, if_true, List.cons_append]
    rw [hsplit, hdigits.takeWhile_append, ← List.append_assoc]
    exact List.prefix_append _ _

/-- What may follow the digits of a numeral does not start with a digit. -/
theorem IsFraction.head? (hfraction : IsFraction fraction) (hexponent : IsExponent exponent) :
    ∀ c ∈ (fraction ++ exponent).head?, c.isDigit = false := by
  cases hfraction with
  | none => exact fun c hc => (hexponent.head? c hc).1
  | some _ =>
    intro c hc
    obtain rfl := Option.some.inj hc
    rfl

/-- The lexer takes no shorter fraction and exponent than there are. -/
theorem IsFraction.prefix_splitFraction (hfraction : IsFraction fraction)
    (hexponent : IsExponent exponent) (tail : List Char) :
    fraction ++ exponent <+: (splitFraction (fraction ++ exponent ++ tail)).1 := by
  have hexponent' := hexponent.prefix_splitExponent tail
  cases hfraction with
  | none =>
    cases exponent with
    | nil => exact List.nil_prefix
    | cons mark exponent =>
      have hmark := (hexponent.head? mark rfl).2
      simpa only [List.nil_append, List.cons_append, splitFraction, hmark, Bool.false_eq_true,
        if_false] using hexponent'
  | @some digits hdigits =>
    have hne := hdigits.isEmpty_takeWhile_append (exponent ++ tail)
    have htaken := run_append_prefix (fun text => (splitExponent text).1) hdigits.isDigit
      (fun c hc => (hexponent.head? c hc).1) hexponent'
    simpa only [List.cons_append, List.append_assoc, splitFraction, beq_self_eq_true, if_true, hne,
      Bool.false_eq_true, if_false, List.cons_prefix_cons, true_and] using htaken

/-- The lexer takes no shorter number than there is. -/
theorem IsNumeral.prefix_splitNumber {numeral : List Char} (h : IsNumeral numeral)
    (tail : List Char) : numeral <+: (splitNumber (numeral ++ tail)).1 := by
  obtain ⟨hwhole, hfraction, hexponent⟩ := h
  rw [List.append_assoc]
  exact run_append_prefix (fun text => (splitFraction text).1) hwhole.isDigit
    (hfraction.head? hexponent) (hfraction.prefix_splitFraction hexponent tail)

/-- The lexer takes the longest number in front of a text that starts with a
digit. -/
theorem isLongest_splitNumber {first : Char} {rest : List Char} (h : first.isDigit = true) :
    IsLongest IsNumeral (splitNumber (first :: rest)).1 (first :: rest) := by
  refine ⟨isNumeral_splitNumber h, ⟨_, splitNumber_append _⟩, ?_⟩
  rintro candidate hcandidate ⟨tail, htail⟩
  rw [← htail]
  exact (hcandidate.prefix_splitNumber tail).length_le

end Lexeme

namespace Number

open Lexeme

variable {run rest exponent : List Char}

/-- The digits of a literal end where the first character that is none stands. -/
theorem spanDigits_append (hrun : ∀ c ∈ run, c.isDigit = true)
    (hrest : ∀ c ∈ rest.head?, c.isDigit = false) :
    Literal.spanDigits (run ++ rest) = (run, rest) := by
  obtain ⟨htake, hdrop⟩ := takeWhile_append_stop hrun hrest
  rw [Literal.spanDigits, htake, hdrop]

/-- Every exponent that can be typed has a value as an exponent. -/
theorem exists_exponent? (h : IsExponent exponent) :
    ∃ value, Literal.exponent? exponent = some value := by
  cases h with
  | none => exact ⟨0, rfl⟩
  | @some mark sign digits hmark hsign hdigits =>
    have hspan := @spanDigits_append digits [] hdigits.isDigit (by simp)
    rw [List.append_nil] at hspan
    obtain ⟨first, more, rfl⟩ := List.exists_cons_of_ne_nil hdigits.ne_nil
    have hmark' : (mark == 'e' || mark == 'E') = true := by simpa using hmark
    cases hsign with
    | plus => exact ⟨ofDigits (first :: more), by simp [Literal.exponent?, hmark', hspan]⟩
    | minus => exact ⟨-ofDigits (first :: more), by simp [Literal.exponent?, hmark', hspan]⟩
    | none =>
      have hfirst := hdigits.isDigit first List.mem_cons_self
      have hminus : first ≠ '-' := by
        rintro rfl
        cases hfirst
      have hplus : first ≠ '+' := by
        rintro rfl
        cases hfirst
      exact ⟨ofDigits (first :: more), by simp [Literal.exponent?, hmark', hspan, hminus, hplus]⟩

/-- Every numeral that can be typed has a value as a literal. -/
theorem exists_decimal? {numeral : List Char} (h : IsNumeral numeral) :
    ∃ value, Literal.decimal? false numeral = some value := by
  obtain @⟨whole, fraction, exponent, hwhole, hfraction, hexponent⟩ := h
  have hspan := spanDigits_append hwhole.isDigit (hfraction.head? hexponent)
  have hempty := hwhole.ne_nil
  obtain ⟨value, hvalue⟩ := exists_exponent? hexponent
  cases hfraction with
  | some hdigits =>
    have hspan' := spanDigits_append hdigits.isDigit fun c hc => (hexponent.head? c hc).1
    rw [List.cons_append] at hspan
    simp [Literal.decimal?, hspan, hspan', hvalue, hempty]
  | none =>
    cases exponent with
    | nil =>
      simp only [List.append_nil] at hspan ⊢
      simp [Literal.decimal?, hspan, hvalue, hempty]
    | cons mark exponent =>
      have hmark : mark ≠ '.' := by simpa using (hexponent.head? mark rfl).2
      rw [List.nil_append] at hspan
      simp [Literal.decimal?, hspan, hvalue, hempty, hmark]

/-- A numeral starts with a digit. -/
theorem exists_cons_of_isNumeral {numeral : List Char} (h : IsNumeral numeral) :
    ∃ first rest, numeral = first :: rest ∧ first.isDigit = true := by
  obtain ⟨hwhole, hfraction, hexponent⟩ := h
  obtain ⟨first, more, rfl⟩ := List.exists_cons_of_ne_nil hwhole.ne_nil
  exact ⟨first, _, rfl, hwhole.isDigit first List.mem_cons_self⟩

/-- Every number that can be typed has a value. -/
theorem exists_parse_of_isNumeral {numeral : List Char} (h : IsNumeral numeral) :
    ∃ value, parse (String.ofList numeral) = .ok value := by
  obtain ⟨value, hvalue⟩ := exists_decimal? h
  obtain ⟨first, rest, rfl, hfirst⟩ := exists_cons_of_isNumeral h
  have hne : (String.ofList (first :: rest)).isEmpty = false := by
    rw [String.isEmpty_eq_false_iff]
    simp
  have hread : Literal.ofChars? (first :: rest) = some value := by
    rw [ofChars?_of_isNumeric (isNumeric_of_isDigit hfirst), hvalue]
  refine ⟨value.toFloat, ?_⟩
  rw [parse, hne, String.toList_ofList, hread]
  rfl

/-- Digits and no more than one point are digits alone or digits on both sides of the
point, where either side may have none. -/
theorem exists_split_of_all_isNumeric {text : List Char} (htext : text.all Text.isNumeric = true)
    (hpoint : text.count '.' ≤ 1) :
    ∃ whole rest, text = whole ++ rest ∧ (∀ c ∈ whole, c.isDigit = true) ∧
      (rest = [] ∨ ∃ fraction, rest = '.' :: fraction ∧ ∀ c ∈ fraction, c.isDigit = true) := by
  induction text with
  | nil => exact ⟨[], [], rfl, by simp, .inl rfl⟩
  | cons first text ih =>
    rw [List.all_cons, Bool.and_eq_true, Text.isNumeric, Bool.or_eq_true, beq_iff_eq] at htext
    obtain ⟨hfirst, htext⟩ := htext
    by_cases hdigit : first.isDigit = true
    · obtain ⟨whole, rest, rfl, hwhole, hrest⟩ := ih htext (by grind)
      exact ⟨first :: whole, rest, rfl, List.forall_mem_cons.mpr ⟨hdigit, hwhole⟩, hrest⟩
    · obtain rfl := hfirst.resolve_left hdigit
      rw [List.count_cons_self] at hpoint
      have hnone : '.' ∉ text := List.count_eq_zero.mp (by omega)
      refine ⟨[], '.' :: text, rfl, by simp, .inr ⟨text, rfl, fun c hc => ?_⟩⟩
      have hnumeric := List.all_eq_true.mp htext c hc
      rw [Text.isNumeric, Bool.or_eq_true, beq_iff_eq] at hnumeric
      exact hnumeric.resolve_right fun heq => hnone (heq ▸ hc)

/-- Such a text is a number exactly if it has a digit. -/
theorem exists_decimal?_iff {text : List Char} (htext : text.all Text.isNumeric = true)
    (hpoint : text.count '.' ≤ 1) :
    (∃ value, Literal.decimal? false text = some value) ↔ ∃ c ∈ text, c.isDigit = true := by
  have hexists {digits : List Char} (hdigits : ∀ c ∈ digits, c.isDigit = true) :
      (∃ c ∈ digits, c.isDigit = true) ↔ digits.isEmpty = false := by
    cases digits with
    | nil => simp
    | cons first more => simpa using .inl (hdigits first List.mem_cons_self)
  obtain ⟨whole, rest, rfl, hwhole, rfl | ⟨fraction, rfl, hfraction⟩⟩ :=
    exists_split_of_all_isNumeric htext hpoint
  · have hspan := @spanDigits_append whole [] hwhole (by simp)
    rw [List.append_nil] at hspan ⊢
    rw [hexists hwhole]
    simp [Literal.decimal?, hspan, Literal.exponent?]
  · have hspan := @spanDigits_append whole ('.' :: fraction) hwhole (by simp)
    have hspan' := @spanDigits_append fraction [] hfraction (by simp)
    rw [List.append_nil] at hspan'
    have hdigits : (∃ c ∈ whole ++ '.' :: fraction, c.isDigit = true) ↔
        ∃ c ∈ whole ++ fraction, c.isDigit = true := by
      have hnone : Char.isDigit '.' = false := rfl
      simp [or_and_right, exists_or, hnone]
    rw [hdigits, hexists (List.forall_mem_append.mpr ⟨hwhole, hfraction⟩)]
    simp [Literal.decimal?, hspan, hspan', Literal.exponent?]

/-- Digits and no more than one point have a value exactly if there is a digit. -/
theorem exists_parse_iff {item : String} (hne : item.isEmpty = false)
    (hitem : item.toList.all Text.isNumeric = true) (hpoint : item.toList.count '.' ≤ 1) :
    (∃ value, parse item = .ok value) ↔ ∃ c ∈ item.toList, c.isDigit = true := by
  rw [← exists_decimal?_iff hitem hpoint, parse, hne]
  have hread : Literal.ofChars? item.toList = Literal.decimal? false item.toList := by
    have hchars : item.toList ≠ [] := by simpa [String.isEmpty_eq_false_iff] using hne
    obtain ⟨first, rest, hcons⟩ := List.exists_cons_of_ne_nil hchars
    rw [hcons, List.all_cons, Bool.and_eq_true] at hitem
    rw [hcons, ofChars?_of_isNumeric hitem.1]
  rw [hread]
  cases Literal.decimal? false item.toList <;> simp

end Number

end FormulaCalculator
