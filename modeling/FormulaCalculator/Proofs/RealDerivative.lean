import FormulaCalculator.Formula.Derivative
import Mathlib.Analysis.Calculus.Deriv.Abs
import Mathlib.Analysis.Calculus.IteratedDeriv.Defs
import Mathlib.Analysis.SpecialFunctions.Pow.Deriv
import Mathlib.Analysis.SpecialFunctions.Sqrt
import Mathlib.Analysis.SpecialFunctions.Trigonometric.ArctanDeriv
import Mathlib.Analysis.SpecialFunctions.Trigonometric.InverseDeriv

/-!
# Derivatives over the real numbers

A formula over the real numbers is read as a function of its variable. It is
regular at a point if no operation in it leaves the inner part of its domain
there. At such a point the function is differentiable, and its derivative is the
value of the derivative of the formula.

A formula that is regular at a point is regular around it, so the derivatives of
the formula and of the function agree around the point. This is what lets the
step from one derivative to the next be repeated.
-/

set_option autoImplicit false

namespace FormulaCalculator

open Filter Topology

/-- Real numbers, with the operations and functions of analysis. -/
noncomputable instance : Elementary ℝ where
  zero := 0
  one := 1
  two := 2
  negate x := -x
  combine
    | .sum, x, y => x + y
    | .difference, x, y => x - y
    | .product, x, y => x * y
    | .quotient, x, y => x / y
    | .power, x, y => x ^ y
  apply
    | .sin => Real.sin
    | .cos => Real.cos
    | .tan => Real.tan
    | .asin => Real.arcsin
    | .acos => Real.arccos
    | .atan => Real.arctan
    | .log => Real.log
    | .sqrt => Real.sqrt
    | .exp => Real.exp
    | .abs => fun x => |x|

namespace ElementaryFunction

/-- The arguments at which a function can be differentiated. -/
def IsRegular : ElementaryFunction → ℝ → Prop
  | .tan, y => Real.cos y ≠ 0
  | .asin, y | .acos, y => -1 < y ∧ y < 1
  | .log, y | .sqrt, y => 0 < y
  | .abs, y => y ≠ 0
  | .sin, _ | .cos, _ | .atan, _ | .exp, _ => True

end ElementaryFunction

namespace Formula

/-- Whether the operation between `f` and `g` can be differentiated at `x`. The
power of a base that is not positive needs an exponent that is a whole number
whatever the variable is. -/
def CombinesRegularly (x : ℝ) (op : Combination) (f g : Formula ℝ) : Prop :=
  match op with
  | .sum | .difference | .product => True
  | .quotient => g.evaluate x ≠ 0
  | .power => 0 < f.evaluate x ∨
      g.isConstant = true ∧ ∃ c : ℤ, g.evaluate x = c ∧ (f.evaluate x ≠ 0 ∨ 1 ≤ c)

/-- Every operation in a formula can be differentiated at `x`. -/
def IsRegular (x : ℝ) : Formula ℝ → Prop
  | .constant _ => True
  | .argument => True
  | .negate f => f.IsRegular x
  | .combine op f g => f.IsRegular x ∧ g.IsRegular x ∧ CombinesRegularly x op f g
  | .apply function f => f.IsRegular x ∧ function.IsRegular (f.evaluate x)

/-- A formula without the variable has one value everywhere. -/
theorem evaluate_eq_of_isConstant {α : Type} [Elementary α] {f : Formula α}
    (h : f.isConstant = true) (x y : α) : f.evaluate x = f.evaluate y := by
  induction f with
  | constant value => rfl
  | argument => cases h
  | negate f ih => exact congrArg Elementary.negate (ih h)
  | combine op f g ihf ihg =>
    simp only [isConstant, Bool.and_eq_true] at h
    exact congrArg₂ (Elementary.combine op) (ihf h.1) (ihg h.2)
  | apply function f ih => exact congrArg (Elementary.apply function) (ih h)

variable {x : ℝ} {f g df dg : Formula ℝ}

/-- The rule for a constant exponent. The base may be zero or negative where the
real power can still be differentiated. -/
theorem hasDerivAt_constantPowerRule
    (hf : HasDerivAt (fun y => f.evaluate y) (df.evaluate x) x)
    (hg : g.isConstant = true) (hreg : CombinesRegularly x .power f g) :
    HasDerivAt (fun y => (Formula.combine .power f g).evaluate y)
      ((constantPowerRule (g.evaluate Elementary.zero) f df).evaluate x) x := by
  have hbase : f.evaluate x ≠ 0 ∨ 1 ≤ g.evaluate x := by
    rcases hreg with hpos | ⟨-, c, hc, hne | hone⟩
    · exact .inl hpos.ne'
    · exact .inl hne
    · right
      rw [hc]
      exact_mod_cast hone
  have hfun : (fun y => (Formula.combine .power f g).evaluate y) =
      fun y => f.evaluate y ^ g.evaluate x := by
    funext y
    change f.evaluate y ^ g.evaluate y = _
    rw [evaluate_eq_of_isConstant hg y x]
  rw [hfun, evaluate_eq_of_isConstant hg Elementary.zero x]
  refine (hf.rpow_const hbase).congr_deriv ?_
  change _ = g.evaluate x * f.evaluate x ^ (g.evaluate x - 1) * df.evaluate x
  ring

/-- The rule for an exponent that depends on the variable, over a positive base. -/
theorem hasDerivAt_generalPowerRule
    (hf : HasDerivAt (fun y => f.evaluate y) (df.evaluate x) x)
    (hg : HasDerivAt (fun y => g.evaluate y) (dg.evaluate x) x) (hpos : 0 < f.evaluate x) :
    HasDerivAt (fun y => (Formula.combine .power f g).evaluate y)
      ((generalPowerRule f g df dg).evaluate x) x := by
  refine (hf.rpow hg hpos).congr_deriv ?_
  change _ = f.evaluate x ^ g.evaluate x * (dg.evaluate x * Real.log (f.evaluate x) +
    g.evaluate x * df.evaluate x / f.evaluate x)
  rw [Real.rpow_sub_one hpos.ne']
  field_simp
  ring

/-- The rule for an operation gives the derivative of the operation. -/
theorem hasDerivAt_combinationRule (op : Combination)
    (hf : HasDerivAt (fun y => f.evaluate y) (df.evaluate x) x)
    (hg : HasDerivAt (fun y => g.evaluate y) (dg.evaluate x) x)
    (hreg : CombinesRegularly x op f g) :
    HasDerivAt (fun y => (Formula.combine op f g).evaluate y)
      ((combinationRule op f g df dg).evaluate x) x := by
  cases op with
  | sum => exact hf.add hg
  | difference => exact hf.sub hg
  | product => exact hf.mul hg
  | quotient =>
    refine (hf.div hg hreg).congr_deriv ?_
    change _ = _ / g.evaluate x ^ (2 : ℝ)
    rw [Real.rpow_two]
    rfl
  | power =>
    by_cases hconst : g.isConstant = true
    · simp only [combinationRule, if_pos hconst]
      exact hasDerivAt_constantPowerRule hf hconst hreg
    · simp only [combinationRule, if_neg hconst]
      have hpos : 0 < f.evaluate x := by
        rcases hreg with hpos | ⟨h, -⟩
        · exact hpos
        · exact absurd h hconst
      exact hasDerivAt_generalPowerRule hf hg hpos

/-- The cofactor of the inverse sine and cosine is the leg of a right triangle with
hypotenuse one. -/
theorem evaluate_cofactor (f : Formula ℝ) (x : ℝ) :
    f.cofactor.evaluate x = Real.sqrt (1 - f.evaluate x ^ 2) := by
  change Real.sqrt (1 - f.evaluate x ^ (2 : ℝ)) = _
  rw [Real.rpow_two]

/-- The rule for a function gives the derivative of the function at what is
under it. -/
theorem hasDerivAt_chainRule (function : ElementaryFunction)
    (hf : HasDerivAt (fun y => f.evaluate y) (df.evaluate x) x)
    (hreg : function.IsRegular (f.evaluate x)) :
    HasDerivAt (fun y => (Formula.apply function f).evaluate y)
      ((chainRule function f df).evaluate x) x := by
  cases function with
  | sin => exact hf.sin
  | cos => exact hf.cos
  | tan =>
    refine ((Real.hasDerivAt_tan hreg).comp x hf).congr_deriv ?_
    change _ = df.evaluate x / Real.cos (f.evaluate x) ^ (2 : ℝ)
    rw [Real.rpow_two]
    ring
  | asin =>
    refine ((Real.hasDerivAt_arcsin hreg.1.ne' hreg.2.ne).comp x hf).congr_deriv ?_
    change _ = df.evaluate x / f.cofactor.evaluate x
    rw [evaluate_cofactor]
    ring
  | acos =>
    refine ((Real.hasDerivAt_arccos hreg.1.ne' hreg.2.ne).comp x hf).congr_deriv ?_
    change _ = -(df.evaluate x / f.cofactor.evaluate x)
    rw [evaluate_cofactor]
    ring
  | atan =>
    refine hf.arctan.congr_deriv ?_
    change _ = df.evaluate x / (1 + f.evaluate x ^ (2 : ℝ))
    rw [Real.rpow_two]
    ring
  | log => exact hf.log hreg.ne'
  | sqrt => exact hf.sqrt hreg.ne'
  | exp => exact hf.exp
  | abs =>
    refine ((hasDerivAt_abs hreg).comp x hf).congr_deriv ?_
    change _ = df.evaluate x * (f.evaluate x / |f.evaluate x|)
    -- Away from zero the sign is the quotient that the formula has for it.
    have hsign : (SignType.sign (f.evaluate x) : ℝ) * |f.evaluate x| = f.evaluate x :=
      sign_mul_abs (f.evaluate x)
    have habs : |f.evaluate x| ≠ 0 := abs_ne_zero.mpr hreg
    rw [mul_comm, eq_div_of_mul_eq habs hsign]

/-- At a point where a formula is regular its derivative has the value of the
derivative there. -/
theorem IsRegular.hasDerivAt (h : f.IsRegular x) :
    HasDerivAt (fun y => f.evaluate y) (f.derivative.evaluate x) x := by
  induction f with
  | constant value => exact hasDerivAt_const x value
  | argument => exact hasDerivAt_id x
  | negate f ih => exact (ih h).neg
  | combine op f g ihf ihg => exact hasDerivAt_combinationRule op (ihf h.1) (ihg h.2.1) h.2.2
  | apply function f ih => exact hasDerivAt_chainRule function (ih h.1) h.2

/-- An operation that can be differentiated at a point can be at all points near it, since
the condition is open. -/
theorem CombinesRegularly.eventually {op : Combination}
    (hf : ContinuousAt (fun y => f.evaluate y) x) (hg : ContinuousAt (fun y => g.evaluate y) x)
    (h : CombinesRegularly x op f g) : ∀ᶠ y in 𝓝 x, CombinesRegularly y op f g := by
  cases op with
  | sum | difference | product => exact Eventually.of_forall fun _ => trivial
  | quotient => exact hg.eventually_ne h
  | power =>
    rcases h with hpos | ⟨hconst, c, hc, hbase⟩
    · filter_upwards [hf.eventually_const_lt hpos] with y hy
      exact .inl hy
    · have hbase' : ∀ᶠ y in 𝓝 x, f.evaluate y ≠ 0 ∨ 1 ≤ c := by
        rcases hbase with hne | hone
        · filter_upwards [hf.eventually_ne hne] with y hy
          exact .inl hy
        · exact Eventually.of_forall fun _ => .inr hone
      filter_upwards [hbase'] with y hy
      exact .inr ⟨hconst, c, (evaluate_eq_of_isConstant hconst y x).trans hc, hy⟩

/-- What keeps an argument regular for a function holds close to it too. -/
theorem eventually_isRegular_function {function : ElementaryFunction}
    (hf : ContinuousAt (fun y => f.evaluate y) x) (h : function.IsRegular (f.evaluate x)) :
    ∀ᶠ y in 𝓝 x, function.IsRegular (f.evaluate y) := by
  cases function with
  | tan => exact (Real.continuous_cos.continuousAt.comp hf).eventually_ne h
  | asin | acos =>
    filter_upwards [hf.eventually_const_lt h.1, hf.eventually_lt_const h.2] with y hlow hhigh
    exact ⟨hlow, hhigh⟩
  | log | sqrt => exact hf.eventually_const_lt h
  | abs => exact hf.eventually_ne h
  | sin | cos | atan | exp => exact Eventually.of_forall fun _ => trivial

/-- A formula that is regular at a point is regular around it. -/
theorem IsRegular.eventually (h : f.IsRegular x) : ∀ᶠ y in 𝓝 x, f.IsRegular y := by
  induction f with
  | constant value | argument => exact Eventually.of_forall fun _ => trivial
  | negate f ih => exact ih h
  | combine op f g ihf ihg =>
    have hop := h.2.2.eventually h.1.hasDerivAt.continuousAt h.2.1.hasDerivAt.continuousAt
    filter_upwards [ihf h.1, ihg h.2.1, hop] with y hfy hgy hopy
    exact ⟨hfy, hgy, hopy⟩
  | apply function f ih =>
    have hfunction := eventually_isRegular_function h.1.hasDerivAt.continuousAt h.2
    filter_upwards [ih h.1, hfunction] with y hfy hy
    exact ⟨hfy, hy⟩

/-- One derivative more is the derivative of the last one. -/
theorem nthDerivative_succ {α : Type} [Elementary α] (n : ℕ) (f : Formula α) :
    nthDerivative (n + 1) f = (nthDerivative n f).derivative := by
  induction n generalizing f with
  | zero => rfl
  | succ n ih => exact ih f.derivative

/-- Where the first `n` derivatives of a formula are regular, its `n`-th
derivative has around there the value of the `n`-th derivative. -/
theorem iteratedDeriv_eventuallyEq (n : ℕ) (h : ∀ k < n, (nthDerivative k f).IsRegular x) :
    iteratedDeriv n (fun y => f.evaluate y) =ᶠ[𝓝 x] fun y => (nthDerivative n f).evaluate y := by
  induction n with
  | zero =>
    rw [iteratedDeriv_zero]
    exact EventuallyEq.rfl
  | succ n ih =>
    have hprev := ih fun k hk => h k (Nat.lt_succ_of_lt hk)
    rw [iteratedDeriv_succ]
    refine hprev.deriv.trans ?_
    filter_upwards [(h n n.lt_succ_self).eventually] with y hy
    rw [nthDerivative_succ]
    exact hy.hasDerivAt.deriv

/-- Differentiating a formula differentiates the function that it is. At every
point where the formula is regular, the function has the value of the derived
formula as its derivative. At every point where the first `n` derived formulas
are regular, each of the first `n` derivatives of the function is differentiable,
and its `n`-th derivative has the value of the `n`-th derived formula. -/
theorem derivative_isDerivative :
    (∀ (f : Formula ℝ) (x : ℝ), f.IsRegular x →
      HasDerivAt (fun y => f.evaluate y) (f.derivative.evaluate x) x) ∧
    ∀ (f : Formula ℝ) (n : ℕ) (x : ℝ), (∀ k < n, (nthDerivative k f).IsRegular x) →
      (∀ k < n, HasDerivAt (iteratedDeriv k fun y => f.evaluate y)
        ((nthDerivative (k + 1) f).evaluate x) x) ∧
      iteratedDeriv n (fun y => f.evaluate y) x = (nthDerivative n f).evaluate x := by
  refine ⟨fun f x h => h.hasDerivAt, fun f n x h => ⟨?_, ?_⟩⟩
  · intro k hk
    have heq := iteratedDeriv_eventuallyEq k fun j hj => h j (hj.trans hk)
    rw [nthDerivative_succ]
    exact (h k hk).hasDerivAt.congr_of_eventuallyEq heq
  · exact (iteratedDeriv_eventuallyEq n h).eq_of_nhds

/-- The formula `x ^ -2`. -/
noncomputable def inverseSquare : Formula ℝ :=
  .combine .power .argument (.negate (.constant 2))

/-- Powers of a negative base are regular where the exponent is a whole number. -/
theorem isRegular_inverseSquare : ∀ k < 2, (nthDerivative k inverseSquare).IsRegular (-1) := by
  have hpower (g : Formula ℝ) (c : ℤ) (hg : g.isConstant = true) (hc : g.evaluate (-1) = c) :
      CombinesRegularly (-1) .power .argument g :=
    .inr ⟨hg, c, hc, .inl (by norm_num [evaluate])⟩
  intro k hk
  interval_cases k
  · refine ⟨trivial, trivial, hpower _ (-2) rfl ?_⟩
    change -(2 : ℝ) = _
    norm_num
  · refine ⟨⟨trivial, ⟨trivial, trivial, hpower _ (-3) rfl ?_⟩, trivial⟩, trivial, trivial⟩
    change -(2 : ℝ) - 1 = _
    norm_num

/-- The first two derivatives of `x ^ -2` at minus one. -/
theorem derivative_isDerivative_inverseSquare :
    (inverseSquare.IsRegular (-1) ∧
      HasDerivAt (fun y => inverseSquare.evaluate y)
        (inverseSquare.derivative.evaluate (-1)) (-1)) ∧
    (∀ k < 2, (nthDerivative k inverseSquare).IsRegular (-1)) ∧
      iteratedDeriv 2 (fun y => inverseSquare.evaluate y) (-1) =
        (nthDerivative 2 inverseSquare).evaluate (-1) := by
  have hregular := isRegular_inverseSquare
  have hfirst : inverseSquare.IsRegular (-1) := hregular 0 (by omega)
  exact ⟨⟨hfirst, derivative_isDerivative.1 inverseSquare (-1) hfirst⟩, hregular,
    (derivative_isDerivative.2 inverseSquare 2 (-1) hregular).2⟩

end Formula

end FormulaCalculator
