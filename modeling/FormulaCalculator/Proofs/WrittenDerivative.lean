import FormulaCalculator.Formula.Derivative
import FormulaCalculator.Proofs.WrittenFormula

/-!
# Reading a written derivative again

Differentiation makes constants with a sign: the exponent `-1` of a power gives
the factor `-1` and the exponent `-2`. Such a constant is read again with its
value unless it is the base of a power, and no derivative of a typed formula has
one there.

The rules of calculus put an operand under a square where it was a denominator or
the argument of some functions, and they make a denominator of what was a base or
the argument of a logarithm. So these places are taken together: none of them
holds a constant with a sign in a typed formula, and every rule keeps it so,
because what a rule makes anew is never a mere constant there.
-/

set_option autoImplicit false

namespace FormulaCalculator

/-- Whether the derivative of a function divides by its argument or takes a power
of it. -/
def ElementaryFunction.derivesPowers : ElementaryFunction → Bool
  | .asin | .acos | .atan | .log => true
  | .sin | .cos | .tan | .sqrt | .exp | .abs => false

namespace Formula

/-- No base is a constant with a sign, nor anything that differentiation can make a
base of: a denominator or the argument of a function that derives powers. -/
def BasesStayUnsigned : Formula Float → Prop
  | .constant _ | .argument => True
  | .negate f => f.BasesStayUnsigned
  | .combine op f g =>
    (op = .power → f.isSigned = false) ∧ (op = .quotient → g.isSigned = false) ∧
      f.BasesStayUnsigned ∧ g.BasesStayUnsigned
  | .apply function f =>
    (function.derivesPowers = true → f.isSigned = false) ∧ f.BasesStayUnsigned

namespace BasesStayUnsigned

variable {f g df dg : Formula Float} {op : Combination} {function : ElementaryFunction}

/-- A formula whose bases stay unsigned has no signed base now. -/
theorem basesUnsigned (h : f.BasesStayUnsigned) : f.basesUnsigned = true := by
  induction f with
  | constant value | argument => rfl
  | negate f ih => exact ih h
  | apply function f ih => exact ih h.2
  | combine op f g ihf ihg =>
    obtain ⟨hbase, -, hf, hg⟩ := h
    simp only [Formula.basesUnsigned, ihf hf, ihg hg, Bool.and_true, Bool.not_eq_true',
      Bool.and_eq_false_imp, decide_eq_true_eq]
    exact hbase

/-- Sums, differences and products have none of these places. -/
theorem combine (hf : f.BasesStayUnsigned) (hg : g.BasesStayUnsigned)
    (hop : op ≠ .power ∧ op ≠ .quotient) : (Formula.combine op f g).BasesStayUnsigned :=
  ⟨fun h => absurd h hop.1, fun h => absurd h hop.2, hf, hg⟩

/-- A power is kept by differentiation if its base has no sign. -/
theorem power (hf : f.BasesStayUnsigned) (hg : g.BasesStayUnsigned) (hbase : f.isSigned = false) :
    (Formula.combine .power f g).BasesStayUnsigned :=
  ⟨fun _ => hbase, nofun, hf, hg⟩

/-- A quotient is kept by differentiation if its denominator has no sign, since the rule
squares it. -/
theorem quotient (hf : f.BasesStayUnsigned) (hg : g.BasesStayUnsigned)
    (hdenominator : g.isSigned = false) : (Formula.combine .quotient f g).BasesStayUnsigned :=
  ⟨nofun, fun _ => hdenominator, hf, hg⟩

/-- A square is a power with the operand as its base. -/
theorem squared (hf : f.BasesStayUnsigned) (hbase : f.isSigned = false) :
    f.squared.BasesStayUnsigned :=
  hf.power trivial hbase

/-- The cofactor of an inverse sine squares its operand, and nothing else in it is a
base. -/
theorem cofactor (hf : f.BasesStayUnsigned) (hbase : f.isSigned = false) :
    f.cofactor.BasesStayUnsigned := by
  have hone : (constant (Elementary.one : Float)).BasesStayUnsigned := trivial
  exact ⟨nofun, hone.combine (hf.squared hbase) (by decide)⟩

/-- The sign of an exponent goes to a factor and to an exponent. -/
theorem constantPowerRule (hf : f.BasesStayUnsigned) (hdf : df.BasesStayUnsigned)
    (hbase : f.isSigned = false) (c : Float) :
    (Formula.constantPowerRule c f df).BasesStayUnsigned := by
  have hfactor : (constant c).BasesStayUnsigned := trivial
  have hlowered : (constant (Elementary.combine .difference c Elementary.one)).BasesStayUnsigned :=
    trivial
  exact (hfactor.combine (hf.power hlowered hbase) (by decide)).combine hdf (by decide)

/-- The rule of a power with a varying exponent makes the base of the power a base and a
denominator, and nothing else. -/
theorem generalPowerRule (hf : f.BasesStayUnsigned) (hg : g.BasesStayUnsigned)
    (hdf : df.BasesStayUnsigned) (hdg : dg.BasesStayUnsigned) (hbase : f.isSigned = false) :
    (Formula.generalPowerRule f g df dg).BasesStayUnsigned := by
  have hlog : (apply .log f).BasesStayUnsigned := ⟨fun _ => hbase, hf⟩
  have hlogarithmic : (Formula.combine .product dg (apply .log f)).BasesStayUnsigned :=
    hdg.combine hlog (by decide)
  have hproduct : (Formula.combine .product g df).BasesStayUnsigned := hg.combine hdf (by decide)
  exact (hf.power hg hbase).combine
    (hlogarithmic.combine (hproduct.quotient hf hbase) (by decide)) (by decide)

/-- The rule of each operation between two formulas keeps the bases unsigned. -/
theorem combinationRule (h : (Formula.combine op f g).BasesStayUnsigned)
    (hdf : df.BasesStayUnsigned) (hdg : dg.BasesStayUnsigned) :
    (Formula.combinationRule op f g df dg).BasesStayUnsigned := by
  obtain ⟨hbase, hdenominator, hf, hg⟩ := h
  have hleft : (Formula.combine .product df g).BasesStayUnsigned := hdf.combine hg (by decide)
  have hright : (Formula.combine .product f dg).BasesStayUnsigned := hf.combine hdg (by decide)
  cases op with
  | sum | difference => exact hdf.combine hdg (by decide)
  | product => exact hleft.combine hright (by decide)
  | quotient =>
    exact (hleft.combine hright (by decide)).quotient (hg.squared (hdenominator rfl)) rfl
  | power =>
    rw [Formula.combinationRule]
    split
    · exact hf.constantPowerRule hdf (hbase rfl) _
    · exact hf.generalPowerRule hg hdf hdg (hbase rfl)

/-- The rule of each function keeps the bases unsigned: those that make a base of the
operand ask that it has no sign. -/
theorem chainRule (h : (apply function f).BasesStayUnsigned) (hdf : df.BasesStayUnsigned) :
    (Formula.chainRule function f df).BasesStayUnsigned := by
  obtain ⟨hargument, hf⟩ := h
  have hone : (constant (Elementary.one : Float)).BasesStayUnsigned := trivial
  have htwo : (constant (Elementary.two : Float)).BasesStayUnsigned := trivial
  -- The functions that derive no powers have no condition on their argument.
  have happly (other : ElementaryFunction) (hother : other.derivesPowers = false) :
      (apply other f).BasesStayUnsigned :=
    ⟨fun htrue => absurd (htrue.symm.trans hother) nofun, hf⟩
  cases function with
  | sin => exact (happly .cos rfl).combine hdf (by decide)
  | cos =>
    have hsin : (negate (apply .sin f)).BasesStayUnsigned := happly .sin rfl
    exact hsin.combine hdf (by decide)
  | tan => exact hdf.quotient ((happly .cos rfl).squared rfl) rfl
  | asin => exact hdf.quotient (hf.cofactor (hargument rfl)) rfl
  | acos => exact hdf.quotient (hf.cofactor (hargument rfl)) rfl
  | atan => exact hdf.quotient (hone.combine (hf.squared (hargument rfl)) (by decide)) rfl
  | log => exact hdf.quotient hf (hargument rfl)
  | sqrt => exact hdf.quotient (htwo.combine (happly .sqrt rfl) (by decide)) rfl
  | exp => exact (happly .exp rfl).combine hdf (by decide)
  | abs => exact hdf.combine (hf.quotient (happly .abs rfl) rfl) (by decide)

/-- Differentiation makes no signed base, by induction on the formula. -/
theorem derivative (h : f.BasesStayUnsigned) : f.derivative.BasesStayUnsigned := by
  induction f with
  | constant value | argument => trivial
  | negate f ih => exact ih h
  | combine op f g ihf ihg => exact h.combinationRule (ihf h.2.2.1) (ihg h.2.2.2)
  | apply function f ih => exact h.chainRule (ih h.2)

/-- However often a formula is differentiated, no signed base comes up. -/
theorem nthDerivative (h : f.BasesStayUnsigned) (n : Nat) :
    (Formula.nthDerivative n f).BasesStayUnsigned := by
  induction n generalizing f with
  | zero => exact h
  | succ n ih => exact ih h.derivative

end BasesStayUnsigned

/-- No constant of the formula has a sign. -/
def Unsigned (f : Formula Float) : Prop := ∀ value ∈ f.constants, Number.isSigned value = false

namespace Unsigned

variable {f g : Formula Float} {op : Combination}

/-- Two formulas without signs have none together. -/
theorem combine (hf : f.Unsigned) (hg : g.Unsigned) : (Formula.combine op f g).Unsigned :=
  List.forall_mem_append.mpr ⟨hf, hg⟩

/-- A formula without signs is no signed constant. -/
theorem isSigned_eq_false (h : f.Unsigned) : f.isSigned = false := by
  cases f with
  | constant value => exact h value (List.mem_singleton_self value)
  | _ => rfl

/-- A formula without signs never gets a signed base. -/
theorem basesStayUnsigned (h : f.Unsigned) : f.BasesStayUnsigned := by
  induction f with
  | constant value | argument => trivial
  | negate f ih => exact ih h
  | apply function f ih => exact ⟨fun _ => isSigned_eq_false h, ih h⟩
  | combine op f g ihf ihg =>
    obtain ⟨hf, hg⟩ := List.forall_mem_append.mp h
    exact ⟨fun _ => isSigned_eq_false hf, fun _ => isSigned_eq_false hg, ihf hf, ihg hg⟩

end Unsigned

/-- The named constants have no sign. -/
theorem unsigned_namedConstant {name : String} {f : Formula Float}
    (h : namedConstant name = .ok f) : f.Unsigned := by
  have hpi : Number.isSigned piValue = false := by decide +kernel
  have heuler : Number.isSigned eulerValue = false := by decide +kernel
  unfold namedConstant at h
  split at h
  · cases h
    exact List.forall_mem_singleton.mpr hpi
  · cases h
    exact List.forall_mem_singleton.mpr heuler
  · cases h

/-- A number without a sign or a name makes a formula without signs. -/
theorem unsigned_ofLeaf {token : Token} {f : Formula Float} (htoken : token.isOperand = true)
    (hnumber : ∀ value, token = .number value → Number.isSigned value = false)
    (h : ofLeaf token = .ok f) : f.Unsigned := by
  cases token with
  | number value =>
    cases h
    exact List.forall_mem_singleton.mpr (hnumber value rfl)
  | argument name =>
    cases h
    exact List.forall_mem_nil _
  | constant name => exact unsigned_namedConstant h
  | _ => cases htoken

/-- A sign between two formulas adds no sign to a constant. -/
theorem unsigned_ofBinary {symbol : String} {left right : Except FormulaError (Formula Float)}
    {f : Formula Float} (hleft : ∀ g, left = .ok g → g.Unsigned)
    (hright : ∀ g, right = .ok g → g.Unsigned)
    (h : ofBinary (.binary symbol) left right = .ok f) : f.Unsigned := by
  obtain ⟨op, g, k, -, hg, hk, rfl⟩ := ofBinary_binary_eq_ok_iff.mp h
  exact (hleft g hg).combine (hright k hk)

end Formula

/-- A derived formula has no signs but those of its numbers and of the minus, which
is an operation and no sign. -/
theorem Derives.unsigned {category : Category} {ts : List Token} {t : SyntaxTree}
    {f : Formula Float} (h : Derives category ts t)
    (hnumbers : ∀ value, .number value ∈ ts → Number.isSigned value = false)
    (hf : Formula.ofTree t = .ok f) : f.Unsigned := by
  induction h generalizing f with
  | product _ ih | factor _ ih | primary _ ih => exact ih hnumbers hf
  | added _ hsign _ ih ihu | scaled _ hsign _ ih ihu =>
    cases hsign <;> exact Formula.unsigned_ofBinary
      (fun g hg => ih (fun value hmem => hnumbers value (by simp [hmem])) hg)
      (fun g hg => ihu (fun value hmem => hnumbers value (by simp [hmem])) hg) hf
  | juxtaposed _ _ _ ih ihu | power _ _ ih ihu =>
    exact Formula.unsigned_ofBinary
      (fun g hg => ih (fun value hmem => hnumbers value (by simp [hmem])) hg)
      (fun g hg => ihu (fun value hmem => hnumbers value (by simp [hmem])) hg) hf
  | negated _ ih =>
    obtain ⟨g, -, hg, rfl⟩ := Formula.ofUnary_unary_eq_ok_iff.mp hf
    exact @ih g (fun value hmem => hnumbers value (List.mem_cons_of_mem _ hmem)) hg
  | leaf htoken =>
    exact Formula.unsigned_ofLeaf htoken
      (fun value heq => hnumbers value (List.mem_singleton.mpr heq.symm)) hf
  | call _ ih =>
    obtain ⟨function, g, -, hg, rfl⟩ := Formula.ofUnary_call_eq_ok_iff.mp hf
    exact @ih g (fun value hmem => hnumbers value (by simp [hmem])) hg
  | group _ ih => exact ih (fun value hmem => hnumbers value (by simp [hmem])) hf

namespace Lexeme

/-- A typed number starts with a digit. -/
theorem isSigned_of_mem_tokensFrom {previous : Option Token} {text : List Char} {value : Float}
    (h : .number value ∈ tokensFrom previous text) : Number.isSigned value = false := by
  obtain ⟨rest, htoken⟩ := exists_typedBefore h
  cases htoken with
  | number hfirst hparse => exact Number.isSigned_of_parse hfirst hparse
  | adds h | scales h => cases h

end Lexeme

namespace Formula

variable {text : String} {f : Formula Float}

/-- A formula that was typed has no signed constant: a minus is always an operator. -/
theorem unsigned_of_ofText (h : ofText text = .ok f) : f.Unsigned := by
  unfold ofText at h
  split at h
  · next t htree =>
    refine (SyntaxTree.derives_of_ofText htree).unsigned (fun value hmem => ?_) h
    rw [Lexed.tokens_ofText] at hmem
    exact Lexeme.isSigned_of_mem_tokensFrom hmem
  · cases h

/-- The text of a derivative of a typed formula is read again, with the values of
the derivative, if the constants of the derivative are finite. -/
theorem ofText_toText_nthDerivative (hf : ofText text = .ok f) {n : Nat}
    (hfinite : ∀ value ∈ (nthDerivative n f).constants, value.isFinite = true) :
    ∃ g, ofText (nthDerivative n f).toText = .ok g ∧
      ∀ x, g.evaluate x = (nthDerivative n f).evaluate x := by
  have hbases := (unsigned_of_ofText hf).basesStayUnsigned.nthDerivative n
  obtain ⟨ts, t, h⟩ := exists_rereadsAs hfinite
  exact ⟨_, h.ofText_eq, evaluate_reread hbases.basesUnsigned⟩

/-- The formula `asin(x) / x ^ -1`, where the exponent is a negated constant. -/
def arcsineQuotient : Formula Float :=
  .combine .quotient (.apply .asin .argument)
    (.combine .power .argument (.negate (.constant 1)))

/-- The second derivative of an inverse sine over a power has signed constants, in
exponents and factors, and keeps its values when its text is read. -/
theorem ofText_toText_nthDerivative_arcsineQuotient :
    ofText "asin(x) / x ^ -1" = .ok arcsineQuotient ∧
      (∀ value ∈ (nthDerivative 2 arcsineQuotient).constants, value.isFinite = true) ∧
      (nthDerivative 2 arcsineQuotient).constants.any Number.isSigned = true ∧
      ∃ g, ofText (nthDerivative 2 arcsineQuotient).toText = .ok g ∧
        ∀ x, g.evaluate x = (nthDerivative 2 arcsineQuotient).evaluate x := by
  have hread : ofText "asin(x) / x ^ -1" = .ok arcsineQuotient := rfl
  have hfinite : ∀ value ∈ (nthDerivative 2 arcsineQuotient).constants, value.isFinite = true := by
    decide +kernel
  have hsigned : (nthDerivative 2 arcsineQuotient).constants.any Number.isSigned = true := by
    decide +kernel
  exact ⟨hread, hfinite, hsigned, ofText_toText_nthDerivative hread hfinite⟩

end Formula

end FormulaCalculator
