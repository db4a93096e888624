import FormulaCalculator.Formula.OfTree
import FormulaCalculator.Postfix.Evaluate
import FormulaCalculator.Proofs.Outcome

/-!
# The two ways to a value

A syntax tree has a value in two ways: as a formula, which is evaluated by
recursion, and in postfix order, which is evaluated on a stack with the names
bound. Where a tree is a formula, both give the same double.

The stack holds the value of each part on top of what was there before the part,
so the argument is one induction over the tree for all stacks. It rests on the
signs, the names and the constants, which both ways know by tables of their own.
-/

set_option autoImplicit false

namespace FormulaCalculator

/-- Every token has the operands of its kind: numbers and names have none, calls
and operators in front of an operand have one, and operators between operands
have two. The variable is that of formulas. -/
inductive SyntaxTree.IsExpression : SyntaxTree → Prop where
  | number {value : Float} : IsExpression (.leaf (.number value))
  | argument : IsExpression (.leaf (.argument argumentName))
  | constant {name : String} : IsExpression (.leaf (.constant name))
  | call {name : String} {t : SyntaxTree} :
    IsExpression t → IsExpression (.unary (.call name) t)
  | unary {symbol : String} {t : SyntaxTree} :
    IsExpression t → IsExpression (.unary (.unary symbol) t)
  | binary {symbol : String} {t u : SyntaxTree} :
    IsExpression t → IsExpression u → IsExpression (.binary (.binary symbol) t u)

namespace Operator

/-- An elementary function is computed under its name as the table does it. -/
theorem applyUnary?_name (function : ElementaryFunction) (o : Float) :
    applyUnary? function.name o = some (Elementary.apply function o) := by
  cases function <;> rfl

/-- The minus in front of an operand is computed as the table does it. -/
theorem applyUnary?_minus (o : Float) : applyUnary? "-" o = some (Elementary.negate o) := rfl

/-- A combination is computed under its sign as the table does it. -/
theorem applyBinary?_sign (op : Combination) (l r : Float) :
    applyBinary? op.sign l r = some (Elementary.combine op l r) := by
  cases op <;> rfl

end Operator

namespace Bindings

/-- A name that is bound has the new value, and every other name keeps its own. -/
theorem get?_bind (bindings : Bindings) (name other : String) (value : Float) :
    (bindings.bind name value).get? other =
      if name = other then some value else bindings.get? other := by
  simp [get?, bind, Std.TreeMap.getElem?_insert]

end Bindings

namespace Formula

variable {name symbol : String} {f : Formula Float}
  {operand left right : Except FormulaError (Formula Float)}

/-- A name that becomes a constant has a value among the constants and is not that of the
argument. -/
theorem namedConstant_eq_ok (h : namedConstant name = .ok f) :
    ∃ value, f = .constant value ∧ name ≠ argumentName ∧
      Bindings.constants.get? name = some value := by
  unfold namedConstant at h
  split at h
  · cases h
    exact ⟨_, rfl, by decide, by rfl⟩
  · cases h
    exact ⟨_, rfl, by decide, by rfl⟩
  · cases h

/-- A call becomes a formula if its function is known and its operand becomes one. -/
theorem ofUnary_call_eq_ok_iff : ofUnary (.call name) operand = .ok f ↔
    ∃ function g, name = function.name ∧ operand = .ok g ∧ f = .apply function g := by
  constructor
  · intro h
    simp only [ofUnary] at h
    split at h
    · next function hfunction =>
      obtain ⟨g, hg, rfl⟩ := map_eq_ok_iff.mp h
      exact ⟨function, g, ElementaryFunction.ofName?_eq_some_iff.mp hfunction, hg, rfl⟩
    · cases h
  · rintro ⟨function, g, rfl, rfl, rfl⟩
    simp only [ofUnary, ElementaryFunction.ofName?_eq_some_iff.mpr rfl, map_ok]

/-- The only sign in front of an operand that becomes a formula is the minus. -/
theorem ofUnary_unary_eq_ok_iff : ofUnary (.unary symbol) operand = .ok f ↔
    ∃ g, symbol = "-" ∧ operand = .ok g ∧ f = .negate g := by
  constructor
  · intro h
    simp only [ofUnary] at h
    split at h
    · next hminus =>
      obtain ⟨g, hg, rfl⟩ := map_eq_ok_iff.mp h
      exact ⟨g, hminus, hg, rfl⟩
    · cases h
  · rintro ⟨g, rfl, rfl, rfl⟩
    rfl

/-- A sign between operands becomes a formula if it is one of a combination and both
operands become formulas. -/
theorem ofBinary_binary_eq_ok_iff : ofBinary (.binary symbol) left right = .ok f ↔
    ∃ op g k, symbol = op.sign ∧ left = .ok g ∧ right = .ok k ∧ f = .combine op g k := by
  constructor
  · intro h
    simp only [ofBinary, bind_eq_ok_iff] at h
    obtain ⟨g, hg, k, hk, h⟩ := h
    split at h
    · next op hop =>
      cases h
      exact ⟨op, g, k, Combination.ofSign?_eq_some_iff.mp hop, hg, hk, rfl⟩
    · cases h
  · rintro ⟨op, g, k, rfl, rfl, rfl, rfl⟩
    simp only [ofBinary, ok_bind, Combination.ofSign?_eq_some_iff.mpr rfl, pure_eq_ok]

end Formula

namespace SyntaxTree.IsExpression

variable {t : SyntaxTree} {f : Formula Float}

/-- Evaluating the postfix order of a tree puts the value of its formula on the
stack. -/
theorem foldlM_push (h : t.IsExpression) (hf : Formula.ofTree t = .ok f) (x : Float)
    (values : List Float) :
    t.postorder.foldlM (Postfix.push (Bindings.constants.bind argumentName x)) values =
      .ok (f.evaluate x :: values) := by
  induction h generalizing f values with
  | number =>
    cases hf
    rfl
  | argument =>
    cases hf
    simp [postorder, Postfix.push, Bindings.valueOf, Bindings.get?_bind, Formula.evaluate]
  | constant =>
    obtain ⟨value, rfl, hne, hget⟩ := Formula.namedConstant_eq_ok hf
    simp [postorder, Postfix.push, Bindings.valueOf, Bindings.get?_bind, hne.symm, hget,
      Formula.evaluate]
  | call _ ih =>
    obtain ⟨function, g, rfl, hg, rfl⟩ := Formula.ofUnary_call_eq_ok_iff.mp hf
    rw [postorder, List.foldlM_append, ih hg]
    simp [Postfix.push, Postfix.pushUnary, Operator.applyUnary?_name, Formula.evaluate]
  | unary _ ih =>
    obtain ⟨g, rfl, hg, rfl⟩ := Formula.ofUnary_unary_eq_ok_iff.mp hf
    rw [postorder, List.foldlM_append, ih hg]
    simp [Postfix.push, Postfix.pushUnary, Operator.applyUnary?_minus, Formula.evaluate]
  | binary _ _ ihl ihr =>
    obtain ⟨op, g, k, rfl, hg, hk, rfl⟩ := Formula.ofBinary_binary_eq_ok_iff.mp hf
    rw [postorder, List.foldlM_append, List.foldlM_append, ihl hg]
    simp [ihr hk, Postfix.push, Postfix.pushBinary, Operator.applyBinary?_sign, Formula.evaluate]

end SyntaxTree.IsExpression

namespace Postfix

/-- If a tree is a formula, its postfix order has the value of the formula, where
nothing but the constants and the variable is bound. -/
theorem evaluateAt_postorder {t : SyntaxTree} (h : t.IsExpression) {f : Formula Float}
    (hf : Formula.ofTree t = .ok f) (x : Float) :
    (Postfix.mk t.postorder).evaluateAt .constants argumentName x = .ok (f.evaluate x) := by
  rw [evaluateAt, evaluate]
  simp [h.foldlM_push hf]

/-- The tree of `-sin(x)^2/pi`. -/
def sineQuotient : SyntaxTree :=
  .binary (.binary "/")
    (.unary (.unary "-")
      (.binary (.binary "^") (.unary (.call "sin") (.leaf (.argument "x"))) (.leaf (.number 2))))
    (.leaf (.constant "pi"))

/-- The tree of a quotient with a negated square of a sine: its formula at three and its
postfix order give the same. -/
theorem evaluateAt_postorder_sineQuotient :
    sineQuotient.IsExpression ∧
      ∃ f, Formula.ofTree sineQuotient = .ok f ∧
        f.evaluate 3 = -Float.pow (Float.sin 3) 2 / piValue ∧
        (Postfix.mk sineQuotient.postorder).evaluateAt .constants argumentName 3 =
          .ok (f.evaluate 3) := by
  have hexpression : sineQuotient.IsExpression :=
    .binary (.unary (.binary (.call .argument) .number)) .constant
  exact ⟨hexpression, _, rfl, rfl, evaluateAt_postorder hexpression rfl 3⟩

end Postfix

end FormulaCalculator
