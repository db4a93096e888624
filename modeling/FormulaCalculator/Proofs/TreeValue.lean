import FormulaCalculator.Postfix.Evaluate
import FormulaCalculator.Proofs.Outcome
import FormulaCalculator.Proofs.TreeOrder
import Mathlib.Data.List.Forall2

/-!
# The values of trees

Evaluating a postfix expression keeps a stack of values, growing its tree keeps
a stack of trees. The two stacks stay in step: every value is that of the tree
in its place. So an expression has a value exactly if it is a tree that has the
value, and what a tree has for a value can be read off the tree.
-/

set_option autoImplicit false

namespace FormulaCalculator

namespace Operator

variable {symbol : String}

/-- Every function of one number belongs to an operator of the table. -/
theorem exists_find?_of_unaryFunction? {f : Float → Float} (h : unaryFunction? symbol = some f) :
    ∃ op, find? symbol .unary = some op := by
  unfold unaryFunction? at h
  split at h
  all_goals first
    | exact ⟨_, rfl⟩
    | cases h

/-- What computes something as a binary operator is in the table. -/
theorem exists_find?_of_binaryFunction? {f : Float → Float → Float}
    (h : binaryFunction? symbol = some f) : ∃ op, find? symbol .binary = some op := by
  unfold binaryFunction? at h
  split at h
  all_goals first
    | exact ⟨_, rfl⟩
    | cases h

end Operator

namespace OperatorTree

/-- The value of a tree: operands have theirs, names those that are bound, and
an operator has the one that its function gives for the values below it. -/
inductive HasValue (bindings : Bindings) : OperatorTree → Float → Prop where
  | number {value : Float} : HasValue bindings (.leaf (.number value)) value
  | argument {name : String} {value : Float} : bindings.get? name = some value →
      HasValue bindings (.leaf (.argument name)) value
  | constant {name : String} {value : Float} : bindings.get? name = some value →
      HasValue bindings (.leaf (.constant name)) value
  | unary {op : Operator} {symbol : String} {operand : OperatorTree} {o value : Float} :
    HasValue bindings operand o → Operator.applyUnary? symbol o = some value →
      HasValue bindings (.unary op (.unary symbol) operand) value
  | call {op : Operator} {name : String} {operand : OperatorTree} {o value : Float} :
    HasValue bindings operand o → Operator.applyUnary? name o = some value →
      HasValue bindings (.unary op (.call name) operand) value
  | binary {op : Operator} {symbol : String} {left right : OperatorTree} {l r value : Float} :
    HasValue bindings left l → HasValue bindings right r →
      Operator.applyBinary? symbol l r = some value →
      HasValue bindings (.binary op (.binary symbol) left right) value

variable {bindings : Bindings} {tree : OperatorTree} {value : Float}

/-- The postfix order of a tree puts the value of the tree on the stack and leaves what is
below it, by induction on the tree. -/
theorem HasValue.foldlM_push (h : tree.HasValue bindings value) (values : List Float) :
    tree.postorder.foldlM (Postfix.push bindings) values = .ok (value :: values) := by
  induction h generalizing values with
  | number => rfl
  | argument hget | constant hget => simp [Postfix.push, Bindings.valueOf, hget]
  | unary _ happly ih | call _ happly ih =>
    rw [postorder_unary, List.foldlM_append, ih]
    simp [Postfix.push, Postfix.pushUnary, happly]
  | binary _ _ happly ihl ihr =>
    rw [postorder_binary, List.foldlM_append, List.foldlM_append, ihl]
    simp [ihr, Postfix.push, Postfix.pushBinary, happly]

/-- The postfix order of a tree is evaluated to the value of the tree. -/
theorem HasValue.evaluate_postorder (h : tree.HasValue bindings value) :
    (Postfix.mk tree.postorder).evaluate bindings = .ok value := by
  simp [Postfix.evaluate, h.foldlM_push]

end OperatorTree

namespace Postfix

open OperatorTree

variable {bindings : Bindings} {value : Float} {values values' : List Float}
  {trees : List OperatorTree} {token : Token} {tokens : List Token}

/-- A name has a value if it is bound to it. -/
theorem valueOf_eq_ok {name : String} (h : bindings.valueOf name = .ok value) :
    bindings.get? name = some value := by
  unfold Bindings.valueOf at h
  split at h
  · next heq =>
    cases h
    exact heq
  · cases h

/-- A unary operator that succeeds replaces the value on top. -/
theorem pushUnary_eq_ok {symbol : String} (h : pushUnary symbol values = .ok values') :
    ∃ operand rest result, values = operand :: rest ∧
      Operator.applyUnary? symbol operand = some result ∧ values' = result :: rest := by
  unfold pushUnary at h
  split at h
  · next operand rest =>
    split at h
    · next result happly =>
      cases h
      exact ⟨operand, rest, result, rfl, happly, rfl⟩
    · cases h
  · cases h

/-- A binary operator that succeeds replaces the two values on top, the later one as its
right operand. -/
theorem pushBinary_eq_ok {symbol : String} (h : pushBinary symbol values = .ok values') :
    ∃ left right rest result, values = right :: left :: rest ∧
      Operator.applyBinary? symbol left right = some result ∧ values' = result :: rest := by
  unfold pushBinary at h
  split at h
  · next right left rest =>
    split at h
    · next result happly =>
      cases h
      exact ⟨left, right, rest, result, rfl, happly, rfl⟩
    · cases h
  · cases h

/-- A unary operator is put on the last tree. -/
theorem growTrees_unary {op : Operator} {operand : OperatorTree} (hop : token.operator? = some op)
    (harity : op.arity = .unary) :
    growTrees (operand :: trees) token = some (.unary op token operand :: trees) := by
  simp [growTrees, hop, harity]

/-- A binary operator is put on the last two trees, the later one on its right. -/
theorem growTrees_binary {op : Operator} {left right : OperatorTree}
    (hop : token.operator? = some op) (harity : op.arity = .binary) :
    growTrees (right :: left :: trees) token = some (.binary op token left right :: trees) := by
  simp [growTrees, hop, harity]

/-- A token that can be evaluated can be put on the trees whose values are on
the stack. -/
theorem exists_growTrees_of_push (hstack : List.Forall₂ (HasValue bindings) trees values)
    (h : push bindings values token = .ok values') :
    ∃ trees', growTrees trees token = some trees' ∧
      List.Forall₂ (HasValue bindings) trees' values' := by
  cases token with
  | stray _ | opening | closing => cases h
  | number value =>
    cases h
    exact ⟨_, rfl, .cons .number hstack⟩
  | argument name =>
    simp only [push, bind_eq_ok_iff] at h
    obtain ⟨value, hvalue, heq⟩ := h
    cases heq
    exact ⟨_, rfl, .cons (.argument (valueOf_eq_ok hvalue)) hstack⟩
  | constant name =>
    simp only [push, bind_eq_ok_iff] at h
    obtain ⟨value, hvalue, heq⟩ := h
    cases heq
    exact ⟨_, rfl, .cons (.constant (valueOf_eq_ok hvalue)) hstack⟩
  | call name =>
    obtain ⟨operand, rest, result, rfl, happly, rfl⟩ := pushUnary_eq_ok h
    obtain ⟨op, hop, harity⟩ := Token.exists_operator?_call name
    cases hstack with
    | cons hoperand hrest =>
      exact ⟨_, growTrees_unary hop harity, .cons (.call hoperand happly) hrest⟩
  | unary symbol =>
    obtain ⟨operand, rest, result, rfl, happly, rfl⟩ := pushUnary_eq_ok h
    -- An operator that computes something is in the table with this arity.
    obtain ⟨f, hf, -⟩ := Option.map_eq_some_iff.mp happly
    obtain ⟨op, hop⟩ := Operator.exists_find?_of_unaryFunction? hf
    have harity := (Operator.mem_of_find? hop).2.2
    cases hstack with
    | cons hoperand hrest =>
      exact ⟨_, growTrees_unary hop harity, .cons (.unary hoperand happly) hrest⟩
  | binary symbol =>
    obtain ⟨left, right, rest, result, rfl, happly, rfl⟩ := pushBinary_eq_ok h
    obtain ⟨f, hf, -⟩ := Option.map_eq_some_iff.mp happly
    obtain ⟨op, hop⟩ := Operator.exists_find?_of_binaryFunction? hf
    have harity := (Operator.mem_of_find? hop).2.2
    cases hstack with
    | cons hright hrest =>
      cases hrest with
      | cons hleft hrest =>
        exact ⟨_, growTrees_binary hop harity, .cons (.binary hleft hright happly) hrest⟩

/-- Tokens that leave values leave trees as well, each with its value, by induction on the
tokens. -/
theorem exists_foldlM_growTrees (hstack : List.Forall₂ (HasValue bindings) trees values)
    (h : tokens.foldlM (push bindings) values = .ok values') :
    ∃ trees', tokens.foldlM growTrees trees = some trees' ∧
      List.Forall₂ (HasValue bindings) trees' values' := by
  induction tokens generalizing trees values with
  | nil =>
    cases h
    exact ⟨trees, rfl, hstack⟩
  | cons token tokens ih =>
    rw [List.foldlM_cons, bind_eq_ok_iff] at h
    obtain ⟨next, hnext, hrest⟩ := h
    obtain ⟨grown, hgrown, hstack'⟩ := exists_growTrees_of_push hstack hnext
    obtain ⟨trees', htrees, hlast⟩ := ih hstack' hrest
    refine ⟨trees', ?_, hlast⟩
    rw [List.foldlM_cons, hgrown]
    exact htrees

/-- An expression has a value exactly if it is a tree that has the value. -/
theorem evaluate_eq_ok_iff {expression : Postfix} :
    expression.evaluate bindings = .ok value ↔
      ∃ tree, expression.tree? = some tree ∧ tree.HasValue bindings value := by
  constructor
  · intro h
    unfold evaluate at h
    rw [bind_eq_ok_iff] at h
    obtain ⟨values, hvalues, hone⟩ := h
    obtain ⟨trees, htrees, hstack⟩ := exists_foldlM_growTrees .nil hvalues
    split at hone
    · cases hone
      obtain ⟨tree, hvalue⟩ : ∃ tree, trees = [tree] ∧ tree.HasValue bindings value := by
        cases hstack with
        | cons hvalue hrest =>
          cases hrest
          exact ⟨_, rfl, hvalue⟩
      obtain ⟨rfl, hvalue⟩ := hvalue
      exact ⟨tree, by simp [tree?, htrees], hvalue⟩
    · cases hone
  · rintro ⟨tree, htree, hvalue⟩
    obtain ⟨-, rfl⟩ := eq_postorder_of_tree? htree
    exact hvalue.evaluate_postorder

end Postfix

end FormulaCalculator
