import FormulaCalculator.Proofs.NumberLiteral
import FormulaCalculator.Proofs.WrittenText

/-!
# Texts joined by a blank

A blank is part of no token and ends every one in front of it. So a text with a
blank behind it keeps its tokens, whatever is written after the blank, and the
tokens of what is written there follow on them.
-/

set_option autoImplicit false

namespace FormulaCalculator

open FormulaCalculator.Text

namespace Lexeme

variable {previous : Option Token} {text more numeral digits : List Char} {cut : Cut}

/-- What does not contain a separator ends in front of it. -/
theorem prefix_of_prefix_append_cons {separator : Char} {candidate : List Char}
    (h : candidate <+: text ++ separator :: more) (hnot : separator ∉ candidate) :
    candidate <+: text := by
  rcases List.prefix_or_prefix_of_prefix h (List.prefix_append text _) with hshort | ⟨rest, rfl⟩
  · exact hshort
  · rw [List.prefix_append_right_inj] at h
    cases rest with
    | nil => rw [List.append_nil]
    | cons first rest =>
      obtain ⟨rfl, -⟩ := List.cons_prefix_cons.mp h
      exact absurd (by simp) hnot

/-- The longest one is not longer before a separator that is in none of the kind. -/
theorem IsLongest.append_cons {kind : List Char → Prop} {found : List Char} {separator : Char}
    (h : IsLongest kind found text) (hnot : ∀ candidate, kind candidate → separator ∉ candidate) :
    IsLongest kind found (text ++ separator :: more) := by
  refine ⟨h.isKind, h.isPrefix.trans (List.prefix_append text _), fun candidate hkind hfront => ?_⟩
  exact h.longest candidate hkind (prefix_of_prefix_append_cons hfront (hnot candidate hkind))

/-- A row of digits has no blank in it. -/
theorem IsDigits.blank_not_mem (h : IsDigits digits) : ' ' ∉ digits := by
  intro hmem
  cases h.isDigit ' ' hmem

/-- A numeral has no blank in it, so a blank ends it at the latest. -/
theorem IsNumeral.blank_not_mem (h : IsNumeral numeral) : ' ' ∉ numeral := by
  obtain ⟨hwhole, hfraction, hexponent⟩ := h
  rw [List.mem_append, List.mem_append]
  rintro (hmem | hmem | hmem)
  · exact hwhole.blank_not_mem hmem
  · cases hfraction with
    | none => cases hmem
    | some hdigits =>
      exact hdigits.blank_not_mem (List.mem_of_ne_of_mem (by decide) hmem)
  · cases hexponent with
    | none => cases hmem
    | @some mark sign digits hmark hsign hdigits =>
      rw [List.cons_append, List.mem_cons, List.mem_append] at hmem
      rcases hmem with rfl | hmem | hmem
      · cases hmark
      · cases hsign <;> simp at hmem
      · exact hdigits.blank_not_mem hmem

/-- A numeral is not longer for what stands behind a blank. -/
theorem splitNumber_append_blank {first : Char} {rest : List Char} (h : first.isDigit = true) :
    splitNumber (first :: (rest ++ ' ' :: more)) =
      ((splitNumber (first :: rest)).1, (splitNumber (first :: rest)).2 ++ ' ' :: more) := by
  have hlongest : IsLongest IsNumeral (splitNumber (first :: rest)).1
      (first :: rest ++ ' ' :: more) :=
    (isLongest_splitNumber h).append_cons fun _ hnumeral => hnumeral.blank_not_mem
  have hsame : (splitNumber (first :: rest)).1 =
      (splitNumber (first :: (rest ++ ' ' :: more))).1 :=
    hlongest.unique (isLongest_splitNumber h)
  have hsplit : (splitNumber (first :: (rest ++ ' ' :: more))).1 ++
      (splitNumber (first :: (rest ++ ' ' :: more))).2 =
      (splitNumber (first :: rest)).1 ++ ((splitNumber (first :: rest)).2 ++ ' ' :: more) := by
    rw [splitNumber_append, ← List.append_assoc, splitNumber_append]
    rfl
  rw [← hsame] at hsplit
  exact Prod.ext hsame.symm (List.append_cancel_left hsplit)

/-- A run of a class that a blank is not in ends in front of the blank. -/
theorem run_append_blank {inClass : Char → Bool} (hblank : inClass ' ' = false)
    (text more : List Char) :
    (text ++ ' ' :: more).takeWhile inClass = text.takeWhile inClass ∧
      (text ++ ' ' :: more).dropWhile inClass = text.dropWhile inClass ++ ' ' :: more := by
  induction text with
  | nil => simp [hblank]
  | cons first text ih => cases hfirst : inClass first <;> simp [hfirst, ih]

/-- What stands behind a blank does not change the first character, unless that is the
blank itself. -/
theorem head?_append_blank_eq_some_iff {c : Char} (h : c ≠ ' ') :
    (text ++ ' ' :: more).head? = some c ↔ text.head? = some c := by
  cases text with
  | nil => simp [h.symm]
  | cons first rest => rfl

/-- Whether a name is a call does not depend on what stands behind a blank. -/
theorem ofName_append_blank (name : String) :
    Token.ofName name (text ++ ' ' :: more).head? = Token.ofName name text.head? := by
  unfold Token.ofName
  simp only [head?_append_blank_eq_some_iff (by decide : '(' ≠ ' ')]

/-- A number, or a bad literal, is cut off as if the text ended at the blank. -/
theorem numberCut_append_blank {first : Char} {rest : List Char} (h : first.isDigit = true) :
    numberCut (first :: (rest ++ ' ' :: more)) =
      ⟨(numberCut (first :: rest)).token, (numberCut (first :: rest)).lexeme,
        (numberCut (first :: rest)).rest ++ ' ' :: more⟩ := by
  obtain ⟨htake, hdrop⟩ :=
    @run_append_blank isNumeric rfl (splitNumber (first :: rest)).2 more
  unfold numberCut
  rw [splitNumber_append_blank h]
  dsimp only
  rw [htake, hdrop]
  simp only [head?_append_blank_eq_some_iff (by decide : '.' ≠ ' ')]
  split <;> rfl

/-- The first token of a text is the same before a blank. -/
theorem firstCut?_append_blank (h : firstCut? previous text = some cut) (more : List Char) :
    firstCut? previous (text ++ ' ' :: more) =
      some ⟨cut.token, cut.lexeme, cut.rest ++ ' ' :: more⟩ := by
  cases cuts_of_firstCut? h with
  | sign hsign => rw [List.cons_append, firstCut?, if_pos hsign]
  | @name first rest hsign hname =>
    obtain ⟨htake, hdrop⟩ := @run_append_blank continuesName (by decide) rest more
    rw [List.cons_append, firstCut?, hsign, hname, htake, hdrop, ofName_append_blank]
    rfl
  | number hsign hname hdigit =>
    rw [List.cons_append, firstCut?, hsign, hname, hdigit, numberCut_append_blank hdigit]
    rfl
  | stray hsign hname hdigit =>
    rw [List.cons_append, firstCut?, hsign, hname, hdigit]
    rfl

/-- The tokens of a text are followed by those of what is written behind a blank,
after the last of them. -/
theorem exists_tokensFrom_append_blank (previous : Option Token) (text more : List Char) :
    ∃ last, tokensFrom previous (text ++ ' ' :: more) =
      tokensFrom previous text ++ tokensFrom last more := by
  induction previous, text using tokensFrom_induction with
  | blank previous text hblank =>
    refine ⟨previous, ?_⟩
    rw [tokensFrom_of_blank hblank, List.nil_append]
    apply tokensFrom_congr
    rw [List.dropWhile_append, hblank]
    rfl
  | cut previous text cut hcut ih =>
    obtain ⟨last, hlast⟩ := ih
    have hne : (text.dropWhile isBlankAscii).isEmpty = false := by
      cases hdrop : text.dropWhile isBlankAscii with
      | nil =>
        rw [hdrop] at hcut
        cases hcut
      | cons first rest => rfl
    have hcut' := firstCut?_append_blank hcut more
    have hdrop : (text ++ ' ' :: more).dropWhile isBlankAscii =
        text.dropWhile isBlankAscii ++ ' ' :: more := by
      rw [List.dropWhile_append, hne]
      rfl
    rw [← hdrop] at hcut'
    refine ⟨last, ?_⟩
    rw [tokensFrom_of_cut hcut', tokensFrom_of_cut hcut, hlast]
    rfl

end Lexeme

end FormulaCalculator
