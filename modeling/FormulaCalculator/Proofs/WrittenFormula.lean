import FormulaCalculator.Formula.Written
import FormulaCalculator.Proofs.FormulaValue
import FormulaCalculator.Proofs.ReadingSoundness
import FormulaCalculator.Proofs.WrittenText

/-!
# Reading a written formula again

A formula is written with parentheses around every operation, but none around a
constant, and a constant can have a sign. Reading takes that sign for a minus in
front of what follows it. This is the constant alone, but for one place: in front
of the base of a power it is the minus of the whole power.

So what the text of a formula is read as can be said exactly. It is the formula
itself if no constant has a sign, and it has the values of the formula if no base
of a power is a constant with a sign.
-/

set_option autoImplicit false

namespace FormulaCalculator

namespace Formula

/-- The constants of a formula, from left to right. -/
def constants {α : Type} : Formula α → List α
  | .constant value => [value]
  | .argument => []
  | .negate f => f.constants
  | .combine _ f g => f.constants ++ g.constants
  | .apply _ f => f.constants

/-- Whether a formula is a constant with a sign. -/
def isSigned : Formula Float → Bool
  | .constant value => Number.isSigned value
  | _ => false

/-- A constant without its sign; other formulas have none. -/
def magnitude : Formula Float → Formula Float
  | .constant value => .constant (if Number.isSigned value then -value else value)
  | f => f

/-- What the text of a formula is read as: the sign of a constant is a minus in
front of it, and in front of a base it is a minus of the power. -/
def reread : Formula Float → Formula Float
  | .constant value =>
    if Number.isSigned value then .negate (.constant (-value)) else .constant value
  | .argument => .argument
  | .negate f => .negate f.reread
  | .combine op f g =>
    if op = .power ∧ f.isSigned = true then .negate (.combine op f.magnitude g.reread)
    else .combine op f.reread g.reread
  | .apply function f => .apply function f.reread

/-- Whether no base of a power is a constant with a sign. -/
def basesUnsigned : Formula Float → Bool
  | .constant _ | .argument => true
  | .negate f | .apply _ f => f.basesUnsigned
  | .combine op f g =>
    !(op = .power && f.isSigned) && f.basesUnsigned && g.basesUnsigned

end Formula

namespace Combination

/-- The sign of a combination is a single character, which is no parenthesis. -/
theorem exists_char_sign (op : Combination) : ∃ first, op.sign.toList = [first] ∧
    Scan.operatorSigns.contains first = true ∧ op.sign ≠ "(" ∧ op.sign ≠ ")" := by
  cases op <;> exact ⟨_, rfl, by decide, by decide, by decide⟩

end Combination

/-- Elementary functions have names of letters. -/
theorem ElementaryFunction.isName (function : ElementaryFunction) : IsName function.name := by
  cases function <;> exact isName_of_letters (by decide) (by decide)

/-- Two factors with the sign of an operation between them are a sum. In front of
the sign of a power a factor has to be a primary. -/
theorem Derives.combined {op : Combination} {ts us : List Token} {t u : SyntaxTree}
    (ht : Derives .factor ts t) (hu : Derives .factor us u)
    (hpower : op = .power → Derives .primary ts t) :
    Derives .sum (ts ++ .binary op.sign :: us) (.binary (.binary op.sign) t u) := by
  cases op with
  | sum => exact .added (.product (.factor ht)) .plus (.factor hu)
  | difference => exact .added (.product (.factor ht)) .minus (.factor hu)
  | product => exact .product (.scaled (.factor ht) .times hu)
  | quotient => exact .product (.scaled (.factor ht) .over hu)
  | power => exact .product (.factor (.power (hpower rfl) hu))

namespace Formula

open Lexeme

variable {f g : Formula Float} {op : Combination} {ts us : List Token} {t u : SyntaxTree}

/-- The text of the formula is cut into the tokens, they are derived as the tree,
and the tree is what the formula is read as. Only a constant with a sign is no
primary. -/
structure RereadsAs (f : Formula Float) (ts : List Token) (t : SyntaxTree) : Prop where
  lexes : Lexes f.toText.toList ts
  factor : Derives .factor ts t
  primary : f.isSigned = false → Derives .primary ts t
  formula : ofTree t = .ok f.reread

/-- A text that is read as a primary is reread as that, with no sign in front. -/
theorem rereadsAs_of_primary (hlexes : Lexes f.toText.toList ts) (hprimary : Derives .primary ts t)
    (hformula : ofTree t = .ok f.reread) : RereadsAs f ts t :=
  ⟨hlexes, .primary hprimary, fun _ => hprimary, hformula⟩

/-- A constant without a sign is read as the number that it is. -/
theorem rereadsAs_unsigned {value : Float} (h : Number.Unsigned value) :
    RereadsAs (.constant value) [.number value] (.leaf (.number value)) := by
  refine rereadsAs_of_primary ?_ (.leaf rfl) ?_
  · rw [toText, Number.toText, String.toList_ofList]
    exact lexes_number h
  · rw [reread, h.isSigned_eq_false]
    rfl

/-- A constant with a sign is read as a number with a minus in front. -/
theorem rereadsAs_signed {value : Float} (hfinite : value.isFinite = true)
    (h : Number.isSigned value = true) :
    RereadsAs (.constant value) [.unary "-", .number (-value)]
      (.unary (.unary "-") (.leaf (.number (-value)))) := by
  obtain ⟨hunsigned, htext⟩ := Number.shortestText_of_isSigned hfinite h
  refine ⟨?_, .negated (.primary (.leaf rfl)), fun hsigned => ?_, ?_⟩
  · rw [toText, Number.toText, String.toList_ofList, htext]
    exact (lexes_number hunsigned).negated
  · rw [isSigned, h] at hsigned
    cases hsigned
  · rw [reread, h]
    rfl

/-- A negation stands in parentheses with its minus, and is reread as one. -/
theorem RereadsAs.negate (h : RereadsAs f ts t) :
    RereadsAs (.negate f) (.opening :: (.unary "-" :: ts) ++ [.closing])
      (.unary (.unary "-") t) := by
  refine rereadsAs_of_primary ?_ (.group (.product (.factor (.negated h.factor)))) ?_
  · have htext : (Formula.negate f).toText.toList = '(' :: ('-' :: f.toText.toList) ++ [')'] := by
      simp [toText]
    rw [htext]
    exact h.lexes.negated.enclosed
  · exact ofUnary_unary_eq_ok_iff.mpr ⟨_, rfl, h.formula, rfl⟩

/-- A call stands with its argument in parentheses, and is reread as one. -/
theorem RereadsAs.apply (h : RereadsAs f ts t) (function : ElementaryFunction) :
    RereadsAs (.apply function f) (.call function.name :: .opening :: ts ++ [.closing])
      (.unary (.call function.name) t) := by
  refine rereadsAs_of_primary ?_ (.call (.product (.factor h.factor))) ?_
  · have htext : (Formula.apply function f).toText.toList =
        function.name.toList ++ ('(' :: f.toText.toList ++ [')']) := by
      simp [toText]
    rw [htext]
    exact h.lexes.called function.isName
  · exact ofUnary_call_eq_ok_iff.mpr ⟨_, _, rfl, h.formula, rfl⟩

/-- A combination is written as an open parenthesis, both operands with the sign between
them, and a closing one. -/
theorem lexes_combine (hts : Lexes f.toText.toList ts) (hus : Lexes g.toText.toList us) :
    Lexes (combine op f g).toText.toList
      (.opening :: (ts ++ .binary op.sign :: us) ++ [.closing]) := by
  obtain ⟨first, hfirst, hcontains, hopening, hclosing⟩ := op.exists_char_sign
  have htext : (combine op f g).toText.toList =
      '(' :: (f.toText.toList ++ ' ' :: first :: ' ' :: g.toText.toList) ++ [')'] := by
    simp [toText, hfirst]
  rw [htext]
  exact (hts.joined hfirst hcontains hopening hclosing hus).enclosed

/-- A combination is reread operand by operand, unless it is a power of a signed
constant. -/
theorem RereadsAs.combine (h : RereadsAs f ts t) (h' : RereadsAs g us u)
    (hbase : ¬(op = .power ∧ f.isSigned = true)) :
    RereadsAs (.combine op f g) (.opening :: (ts ++ .binary op.sign :: us) ++ [.closing])
      (.binary (.binary op.sign) t u) := by
  refine rereadsAs_of_primary (lexes_combine h.lexes h'.lexes) (.group ?_) ?_
  · exact h.factor.combined h'.factor fun hpower => h.primary (by simpa [hpower] using hbase)
  · rw [reread, if_neg hbase]
    exact ofBinary_binary_eq_ok_iff.mpr ⟨_, _, _, rfl, h.formula, h'.formula, rfl⟩

/-- The sign of a base is read as a minus of the power. -/
theorem RereadsAs.power_signed {value : Float} (hfinite : value.isFinite = true)
    (h : Number.isSigned value = true) (h' : RereadsAs g us u) :
    RereadsAs (.combine .power (.constant value) g)
      (.opening :: ([.unary "-", .number (-value)] ++ .binary "^" :: us) ++ [.closing])
      (.unary (.unary "-") (.binary (.binary "^") (.leaf (.number (-value))) u)) := by
  refine rereadsAs_of_primary (lexes_combine (rereadsAs_signed hfinite h).lexes h'.lexes) ?_ ?_
  · exact .group (.product (.factor (.negated (.power (.leaf rfl) h'.factor))))
  · rw [reread, if_pos ⟨rfl, h⟩, magnitude, h]
    refine ofUnary_unary_eq_ok_iff.mpr ⟨_, rfl, ?_, rfl⟩
    exact ofBinary_binary_eq_ok_iff.mpr ⟨.power, _, _, rfl, rfl, h'.formula, rfl⟩

/-- Only a constant is signed by itself. -/
theorem exists_constant_of_isSigned (h : f.isSigned = true) :
    ∃ value, f = .constant value ∧ Number.isSigned value = true := by
  cases f with
  | constant value => exact ⟨value, rfl, h⟩
  | _ => cases h

/-- The text of a formula with finite constants is read. -/
theorem exists_rereadsAs (hfinite : ∀ value ∈ f.constants, value.isFinite = true) :
    ∃ ts t, RereadsAs f ts t := by
  induction f with
  | constant value =>
    have hvalue : value.isFinite = true := hfinite value (List.mem_singleton_self value)
    cases hsigned : Number.isSigned value with
    | false =>
      exact ⟨_, _, rereadsAs_unsigned (Number.unsigned_of_isSigned_eq_false hvalue hsigned)⟩
    | true => exact ⟨_, _, rereadsAs_signed hvalue hsigned⟩
  | argument => exact ⟨_, _, rereadsAs_of_primary lexes_argument (.leaf rfl) rfl⟩
  | negate f ih =>
    obtain ⟨ts, t, h⟩ := ih hfinite
    exact ⟨_, _, h.negate⟩
  | apply function f ih =>
    obtain ⟨ts, t, h⟩ := ih hfinite
    exact ⟨_, _, h.apply function⟩
  | combine op f g ihf ihg =>
    obtain ⟨hf, hg⟩ := List.forall_mem_append.mp hfinite
    obtain ⟨ts, t, h⟩ := ihf hf
    obtain ⟨us, u, h'⟩ := ihg hg
    -- A signed base is no primary, so its sign ends up in front of the power.
    by_cases hbase : op = .power ∧ f.isSigned = true
    · obtain ⟨rfl, hsigned⟩ := hbase
      obtain ⟨value, rfl, hvalue⟩ := exists_constant_of_isSigned hsigned
      exact ⟨_, _, h'.power_signed (hf value (List.mem_singleton_self value)) hvalue⟩
    · exact ⟨_, _, h.combine h' hbase⟩

/-- The text of a formula is read as the formula that it is reread as. -/
theorem RereadsAs.ofText_eq (h : RereadsAs f ts t) : ofText f.toText = .ok f.reread := by
  obtain ⟨last, -, heq⟩ := h.lexes none [] rfl (by simp [FollowsPart])
  have hend : tokensFrom (some last) [] = [] := tokensFrom_of_blank rfl
  rw [hend, List.append_nil, List.append_nil] at heq
  have htree : SyntaxTree.ofText f.toText = .ok t := by
    apply SyntaxTree.ofText_of_derives
    rw [Lexed.tokens_ofText, heq]
    exact .product (.factor h.factor)
  rw [ofText, htree]
  exact h.formula

/-- A formula is read as itself exactly if it has no sign to be read as a minus. -/
theorem reread_eq_self_iff :
    f.reread = f ↔ ∀ value ∈ f.constants, Number.isSigned value = false := by
  induction f with
  | constant value => cases h : Number.isSigned value <;> simp [reread, constants, h]
  | argument => simp [reread, constants]
  | negate f ih => rw [reread, constants, negate.injEq, ih]
  | apply function f ih => rw [reread, constants, apply.injEq, ih, and_iff_right rfl]
  | combine op f g ihf ihg =>
    rw [reread, constants, List.forall_mem_append]
    split
    · next hbase =>
      obtain ⟨value, rfl, hvalue⟩ := exists_constant_of_isSigned hbase.2
      simp [constants, hvalue]
    · rw [combine.injEq, ihf, ihg, and_iff_right rfl]

/-- A minus in front of a constant gives it the sign back. -/
theorem evaluate_reread (h : f.basesUnsigned = true) (x : Float) :
    f.reread.evaluate x = f.evaluate x := by
  induction f with
  | constant value =>
    rw [reread]
    split
    · exact Number.Binary.neg_neg_eq value
    · rfl
  | argument => rfl
  | negate f ih => rw [reread, evaluate, evaluate, ih h]
  | apply function f ih => rw [reread, evaluate, evaluate, ih h]
  | combine op f g ihf ihg =>
    simp only [basesUnsigned, Bool.and_eq_true, Bool.not_eq_true', Bool.and_eq_false_iff,
      decide_eq_false_iff_not] at h
    obtain ⟨⟨hbase, hf⟩, hg⟩ := h
    rw [reread, if_neg (by simpa [imp_iff_not_or] using hbase), evaluate, evaluate, ihf hf, ihg hg]

/-- The text of a formula with finite constants is always read, as the formula
itself exactly if no constant has a sign. It is read with the values of the formula
if no base of a power is a constant with a sign. -/
theorem ofText_toText_of_isFinite (hfinite : ∀ value ∈ f.constants, value.isFinite = true) :
    ofText f.toText = .ok f.reread ∧
      (f.reread = f ↔ ∀ value ∈ f.constants, Number.isSigned value = false) ∧
      (f.basesUnsigned = true → ∀ x, f.reread.evaluate x = f.evaluate x) := by
  obtain ⟨ts, t, h⟩ := exists_rereadsAs hfinite
  exact ⟨h.ofText_eq, reread_eq_self_iff, evaluate_reread⟩

/-- The formula `-3 * x ^ -2`, with signs, but none on a base. -/
def signedExponent : Formula Float :=
  .combine .product (.constant (-3)) (.combine .power .argument (.constant (-2)))

/-- The text of `-3 * x ^ -2` keeps the values though its signs are read as negations. -/
theorem ofText_toText_of_isFinite_signedExponent :
    (∀ value ∈ signedExponent.constants, value.isFinite = true) ∧
      signedExponent.basesUnsigned = true ∧
      ofText signedExponent.toText = .ok signedExponent.reread ∧
      (signedExponent.reread = signedExponent ↔
        ∀ value ∈ signedExponent.constants, Number.isSigned value = false) ∧
      ∀ x, signedExponent.reread.evaluate x = signedExponent.evaluate x := by
  have hfinite : ∀ value ∈ signedExponent.constants, value.isFinite = true := by
    decide +kernel
  have hbases : signedExponent.basesUnsigned = true := by
    decide +kernel
  obtain ⟨hread, hsame, hvalues⟩ := ofText_toText_of_isFinite hfinite
  exact ⟨hfinite, hbases, hread, hsame, hvalues hbases⟩

/-- The square of `-2` is written without parentheses around its base, and it is
read as the opposite of the square of `2`. -/
example : (combine .power (.constant (-2)) (.constant 2)).toText = "(-2 ^ 2)" ∧
    ofText "(-2 ^ 2)" = .ok (.negate (.combine .power (.constant 2) (.constant 2))) :=
  ⟨by decide +kernel, rfl⟩

/-- The text of a formula without signs is read as the formula. -/
theorem ofText_toText_of_unsigned
    (h : ∀ value ∈ f.constants, value.isFinite = true ∧ Number.isSigned value = false) :
    ofText f.toText = .ok f := by
  obtain ⟨ts, t, hrereads⟩ := exists_rereadsAs fun value hvalue => (h value hvalue).1
  rw [hrereads.ofText_eq, reread_eq_self_iff.mpr fun value hvalue => (h value hvalue).2]

/-- The formula `-abs(x - 0.5) / 2 ^ x`. -/
def nestedQuotient : Formula Float :=
  .combine .quotient (.negate (.apply .abs (.combine .difference .argument (.constant 0.5))))
    (.combine .power (.constant 2) .argument)

/-- The text of `-abs(x - 0.5) / 2 ^ x` is read as the formula again. -/
theorem ofText_toText_of_unsigned_nestedQuotient :
    (∀ value ∈ nestedQuotient.constants,
        value.isFinite = true ∧ Number.isSigned value = false) ∧
      ofText nestedQuotient.toText = .ok nestedQuotient := by
  have hunsigned : ∀ value ∈ nestedQuotient.constants,
      value.isFinite = true ∧ Number.isSigned value = false := by
    decide +kernel
  exact ⟨hunsigned, ofText_toText_of_unsigned hunsigned⟩

end Formula

end FormulaCalculator
