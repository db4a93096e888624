import FormulaCalculator.Postfix.OperatorTree
import FormulaCalculator.SyntaxTree

/-!
# Trees and their postfix order

A tree of operators whose nodes are what the table says of their tokens can be
put into postfix order and grown from it again. Nothing else is grown from a
postfix expression, so a tree and its postfix order determine each other.
-/

set_option autoImplicit false

namespace FormulaCalculator

namespace OperatorTree

/-- The tree without what the table says of its operators. -/
def syntaxTree : OperatorTree → SyntaxTree
  | .leaf token => .leaf token
  | .unary _ token operand => .unary token operand.syntaxTree
  | .binary _ token left right => .binary token left.syntaxTree right.syntaxTree

/-- Every node has the operator that its token is, with as many operands as it
takes, and no leaf is an operator. -/
inductive Sound : OperatorTree → Prop where
  | leaf {token : Token} : token.operator? = none → Sound (.leaf token)
  | unary {op : Operator} {token : Token} {operand : OperatorTree} :
    token.operator? = some op → op.arity = .unary → Sound operand →
      Sound (.unary op token operand)
  | binary {op : Operator} {token : Token} {left right : OperatorTree} :
    token.operator? = some op → op.arity = .binary → Sound left → Sound right →
      Sound (.binary op token left right)

/-- The postfix order of a tree. -/
def postorder (tree : OperatorTree) : List Token := tree.syntaxTree.postorder

/-- A leaf is its own postfix order. -/
@[simp]
theorem postorder_leaf (token : Token) : (leaf token).postorder = [token] := rfl

/-- A unary operator goes behind its operand. -/
@[simp]
theorem postorder_unary (op : Operator) (token : Token) (operand : OperatorTree) :
    (unary op token operand).postorder = operand.postorder ++ [token] := rfl

/-- A binary operator goes behind its operands, the left one first. -/
@[simp]
theorem postorder_binary (op : Operator) (token : Token) (left right : OperatorTree) :
    (binary op token left right).postorder = left.postorder ++ right.postorder ++ [token] := rfl

/-- The trees of a stack in the order in which their tokens came. -/
def postorders (trees : List OperatorTree) : List Token :=
  trees.reverse.flatMap postorder

/-- The tree on top of a stack comes behind those below it. -/
theorem postorders_cons (tree : OperatorTree) (trees : List OperatorTree) :
    postorders (tree :: trees) = postorders trees ++ tree.postorder := by
  simp [postorders]

/-- The tokens of a tree grow it on top of the trees that are there. -/
theorem Sound.foldlM_growTrees {tree : OperatorTree} (h : tree.Sound)
    (trees : List OperatorTree) :
    tree.postorder.foldlM Postfix.growTrees trees = some (tree :: trees) := by
  induction h generalizing trees with
  | leaf hop => simp [Postfix.growTrees, hop]
  | @unary op token operand hop harity _ ih =>
    have htop : Postfix.growTrees (operand :: trees) token =
        some (.unary op token operand :: trees) := by
      simp [Postfix.growTrees, hop, harity]
    rw [postorder_unary, List.foldlM_append, ih]
    simp [htop]
  | @binary op token left right hop harity _ _ ihl ihr =>
    have htop : Postfix.growTrees (right :: left :: trees) token =
        some (.binary op token left right :: trees) := by
      simp [Postfix.growTrees, hop, harity]
    rw [postorder_binary, List.foldlM_append, List.foldlM_append, ihl]
    simp [ihr, htop]

/-- A tree is found again from its postfix order. -/
theorem Sound.tree?_postorder {tree : OperatorTree} (h : tree.Sound) :
    Postfix.tree? ⟨tree.postorder⟩ = some tree := by
  simp [Postfix.tree?, h.foldlM_growTrees]

/-- One token makes sound trees of sound trees and adds itself to their postfix order. -/
theorem sound_of_growTrees {trees trees' : List OperatorTree} {token : Token}
    (h : Postfix.growTrees trees token = some trees') (hsound : ∀ tree ∈ trees, tree.Sound) :
    (∀ tree ∈ trees', tree.Sound) ∧ postorders trees' = postorders trees ++ [token] := by
  unfold Postfix.growTrees at h
  split at h
  · next hop =>
    cases h
    refine ⟨List.forall_mem_cons.mpr ⟨.leaf hop, hsound⟩, ?_⟩
    rw [postorders_cons, postorder_leaf]
  · next op hop =>
    split at h
    · next operand trees harity =>
      cases h
      obtain ⟨hoperand, hsound⟩ := List.forall_mem_cons.mp hsound
      refine ⟨List.forall_mem_cons.mpr ⟨.unary hop harity hoperand, hsound⟩, ?_⟩
      rw [postorders_cons, postorders_cons, postorder_unary, List.append_assoc]
    · next right left trees harity =>
      cases h
      obtain ⟨hright, hsound⟩ := List.forall_mem_cons.mp hsound
      obtain ⟨hleft, hsound⟩ := List.forall_mem_cons.mp hsound
      refine ⟨List.forall_mem_cons.mpr ⟨.binary hop harity hleft hright, hsound⟩, ?_⟩
      simp only [postorders_cons, postorder_binary, List.append_assoc]
    · cases h

/-- Growing trees keeps the stack sound and the tokens in their order. -/
theorem sound_of_foldlM_growTrees {tokens : List Token} {trees trees' : List OperatorTree}
    (h : tokens.foldlM Postfix.growTrees trees = some trees')
    (hsound : ∀ tree ∈ trees, tree.Sound) :
    (∀ tree ∈ trees', tree.Sound) ∧ postorders trees' = postorders trees ++ tokens := by
  induction tokens generalizing trees with
  | nil =>
    cases h
    exact ⟨hsound, by simp⟩
  | cons token tokens ih =>
    rw [List.foldlM_cons] at h
    cases hstep : Postfix.growTrees trees token with
    | none =>
      rw [hstep] at h
      cases h
    | some next =>
      rw [hstep] at h
      obtain ⟨hnext, horder⟩ := sound_of_growTrees hstep hsound
      obtain ⟨hlast, horder'⟩ := ih h hnext
      refine ⟨hlast, ?_⟩
      rw [horder', horder, List.append_assoc, List.singleton_append]

/-- A postfix expression that is a tree is the postfix order of the tree. -/
theorem eq_postorder_of_tree? {expression : Postfix} {tree : OperatorTree}
    (h : expression.tree? = some tree) : tree.Sound ∧ expression = ⟨tree.postorder⟩ := by
  unfold Postfix.tree? at h
  split at h
  · next grown heq =>
    cases h
    obtain ⟨hsound, horder⟩ := sound_of_foldlM_growTrees heq (by simp)
    have htokens : tree.postorder = expression.tokens := by
      simpa [postorders] using horder
    rw [htokens]
    exact ⟨hsound _ (List.mem_singleton_self _), rfl⟩
  · cases h

end OperatorTree

/-- Trees that are what the table says of their tokens have different postfix
orders. -/
theorem OperatorTree.Sound.postorder_inj {s t : OperatorTree} (hs : s.Sound) (ht : t.Sound)
    (h : s.postorder = t.postorder) : s = t := by
  have htree := hs.tree?_postorder
  rw [h, ht.tree?_postorder] at htree
  exact (Option.some.inj htree).symm

end FormulaCalculator
