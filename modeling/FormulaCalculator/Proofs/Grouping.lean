import FormulaCalculator.Operator
import FormulaCalculator.SyntaxTree

/-!
# Expressions in the usual order and their trees

In the usual order an expression is a sequence of operands with binary operators
between them. An operand has any number of operators in front of it, then a
number, a name or a group in parentheses, then any number of operators behind.

Precedence and associativity give every such expression one tree. The operators
at the outer edges of a tree decide how it can be put under another operator: a
tree on the left of a binary operator has to have finished with all operators
that could still take operands on its right, and a tree on the right must not
hold an operator on its left edge that should have taken less. An operator
directly in front of a group is an exception: it takes the group and no more.
-/

set_option autoImplicit false

namespace FormulaCalculator

namespace Operator

variable {waiting op : Operator}

/-- An operator that associates to the left comes after all that are not weaker. -/
theorem goesBefore_of_left (hleft : op.associativity = .left)
    (hle : op.precedence ≤ waiting.precedence) : waiting.goesBefore op = true := by
  rcases Nat.lt_or_eq_of_le hle with hlt | heq
  · simp [goesBefore, hlt]
  · simp [goesBefore, hleft, heq]

/-- A waiting operator of higher precedence goes before the other one. -/
theorem goesBefore_of_lt (hlt : op.precedence < waiting.precedence) :
    waiting.goesBefore op = true := by
  simp [goesBefore, hlt]

/-- A waiting operator of lower precedence does not go before the other one. -/
theorem not_goesBefore_of_lt (hlt : waiting.precedence < op.precedence) :
    waiting.goesBefore op = false := by
  have hne : waiting.precedence ≠ op.precedence := Nat.ne_of_lt hlt
  simp [goesBefore, hne, Nat.le_of_lt hlt]

/-- An operator that associates to the right comes before all that are not
stronger. -/
theorem not_goesBefore_of_right (hright : op.associativity = .right)
    (hle : waiting.precedence ≤ op.precedence) : waiting.goesBefore op = false := by
  simp [goesBefore, hright, hle]

end Operator

namespace Token

/-- Whether a token is an operand by itself. -/
def isOperand : Token → Bool
  | .number _ | .argument _ | .constant _ => true
  | _ => false

/-- The token is an operator in front of its operand. -/
inductive Leads : Token → Operator → Prop where
  | unary {symbol : String} {op : Operator} :
    Operator.find? symbol .unary = some op → op.followsOperand = false → Leads (.unary symbol) op
  | call {name : String} {op : Operator} :
    (Token.call name).operator? = some op → Leads (.call name) op

/-- The token is an operator behind its operand. -/
inductive Trails : Token → Operator → Prop where
  | unary {symbol : String} {op : Operator} :
    Operator.find? symbol .unary = some op → op.followsOperand = true → Trails (.unary symbol) op

/-- The token is an operator between its operands. -/
inductive Joins : Token → Operator → Prop where
  | binary {symbol : String} {op : Operator} :
    Operator.find? symbol .binary = some op → Joins (.binary symbol) op

variable {token : Token} {op : Operator}

/-- An operator in front of its operand is in the table. -/
theorem Leads.operator? (h : token.Leads op) : token.operator? = some op := by
  cases h <;> assumption

/-- An operator behind its operand is in the table. -/
theorem Trails.operator? (h : token.Trails op) : token.operator? = some op := by
  cases h
  assumption

/-- An operator between its operands is in the table. -/
theorem Joins.operator? (h : token.Joins op) : token.operator? = some op := by
  cases h
  assumption

/-- What stands in front of an operand takes one operand. -/
theorem Leads.arity (h : token.Leads op) : op.arity = .unary := by
  cases h with
  | unary hfind _ => exact (Operator.mem_of_find? hfind).2.2
  | @call name _ hop =>
    simp only [Token.operator?] at hop
    cases hfind : Operator.find? name .unary with
    | none =>
      rw [hfind] at hop
      cases hop
      rfl
    | some other =>
      rw [hfind] at hop
      cases hop
      exact (Operator.mem_of_find? hfind).2.2

/-- What stands behind an operand takes one operand. -/
theorem Trails.arity (h : token.Trails op) : op.arity = .unary := by
  cases h with
  | unary hfind _ => exact (Operator.mem_of_find? hfind).2.2

/-- What stands between operands takes two. -/
theorem Joins.arity (h : token.Joins op) : op.arity = .binary := by
  cases h with
  | binary hfind => exact (Operator.mem_of_find? hfind).2.2

/-- An operator in front of its operand is no parenthesis. -/
theorem Leads.ne_opening (h : token.Leads op) : token ≠ .opening := by
  rintro rfl
  cases h

/-- An operator behind its operand takes it before any binary operator does. -/
theorem Trails.goesBefore {joint : Token} {other : Operator} (h : token.Trails op)
    (hjoint : joint.Joins other) : op.goesBefore other = true := by
  have htable : ∀ op ∈ Operator.table, op.followsOperand = true →
      ∀ other ∈ Operator.table, other.arity = .binary → op.goesBefore other = true := by
    decide
  cases h with
  | unary hfind hfollows =>
    cases hjoint with
    | binary hfind' =>
      have hmem := Operator.mem_of_find? hfind'
      exact htable op (Operator.mem_of_find? hfind).1 hfollows other hmem.1 hmem.2.2

end Token

mutual

/-- A sequence of operands with binary operators between them. -/
inductive WellFormed : List Token → Prop where
  | operand {ts : List Token} : WellFormedOperand ts → WellFormed ts
  | joined {ts us : List Token} {joint : Token} {op : Operator} :
    WellFormed ts → joint.Joins op → WellFormedOperand us → WellFormed (ts ++ joint :: us)

/-- An operand: operators in front, a leaf or a group, operators behind. -/
inductive WellFormedOperand : List Token → Prop where
  | leaf {front back : List Token} {token : Token} :
    (∀ p ∈ front, ∃ op, p.Leads op) → token.isOperand = true → (∀ q ∈ back, ∃ op, q.Trails op) →
      WellFormedOperand (front ++ token :: back)
  | group {front back ts : List Token} :
    (∀ p ∈ front, ∃ op, p.Leads op) → WellFormed ts → (∀ q ∈ back, ∃ op, q.Trails op) →
      WellFormedOperand (front ++ .opening :: ts ++ .closing :: back)

end

/-- The tree of an expression in the usual order, between the operators on its
left edge and those on its right edge, the outermost first. On the left edge are
the binary operators that could have given their left operand away, on the right
edge those operators, binary or in front of an operand, that could go on with
their last one. A group has neither, and the operators behind it or a leaf leave
it so. -/
inductive Grouping : List Token → List Operator → List Operator → SyntaxTree → Prop where
  | leaf {token : Token} : token.isOperand = true → Grouping [token] [] [] (.leaf token)
  | group {ts : List Token} {left right : List Operator} {t : SyntaxTree} :
    Grouping ts left right t → Grouping (.opening :: ts ++ [.closing]) [] [] t
  /-- An operator directly in front of a group takes the group alone. -/
  | applied {p : Token} {op : Operator} {ts : List Token} {left right : List Operator}
      {t : SyntaxTree} :
    p.Leads op → Grouping ts left right t →
      Grouping (p :: .opening :: ts ++ [.closing]) [] [] (.unary p t)
  | trailing {q : Token} {op : Operator} {ts : List Token} {t : SyntaxTree} :
    Grouping ts [] [] t → q.Trails op → Grouping (ts ++ [q]) [] [] (.unary q t)
  /-- Any other operator in front of an operand goes on over those binary
  operators before which it does not go. -/
  | leading {p : Token} {op : Operator} {ts : List Token} {left right : List Operator}
      {t : SyntaxTree} :
    p.Leads op → Grouping ts left right t → ts.head? ≠ some .opening →
      (∀ other ∈ left, op.goesBefore other = false) →
      Grouping (p :: ts) [] (op :: right) (.unary p t)
  | joined {joint : Token} {op : Operator} {ts us : List Token}
      {left right left' right' : List Operator} {t u : SyntaxTree} :
    Grouping ts left right t → joint.Joins op → Grouping us left' right' u →
      (∀ other ∈ right, other.goesBefore op = true) →
      (∀ other ∈ left', op.goesBefore other = false) →
      Grouping (ts ++ joint :: us) (op :: left) (op :: right') (.binary joint t u)

/-- The tree that precedence and associativity give to an expression. -/
def IsTreeOf (t : SyntaxTree) (ts : List Token) : Prop :=
  ∃ left right, Grouping ts left right t

namespace Grouping

variable {ts us front back : List Token} {left right left' right' : List Operator}
  {t u : SyntaxTree} {joint : Token} {op : Operator}

/-- There is no tree of nothing. -/
theorem ne_nil (h : Grouping ts left right t) : ts ≠ [] := by
  cases h <;> simp

/-- What follows an expression does not change how it starts. -/
theorem head?_append (h : Grouping ts left right t) (us : List Token) :
    (ts ++ us).head? = ts.head? := by
  cases ts with
  | nil => exact absurd rfl h.ne_nil
  | cons first rest => rfl

/-- An operand is joined to an expression inside its right edge if not all
operators there go before the joint. The left edge stays as it is. -/
theorem exists_absorb (h : Grouping ts left right t) (hjoint : joint.Joins op)
    (hu : Grouping us [] right' u) (hlow : ¬∀ other ∈ right, other.goesBefore op = true) :
    ∃ edge tree, Grouping (ts ++ joint :: us) left edge tree := by
  have hhead {o : Operator} {edge : List Operator}
      (hlow : ¬∀ other ∈ o :: edge, other.goesBefore op = true)
      (hrest : ∀ other ∈ edge, other.goesBefore op = true) : o.goesBefore op = false := by
    rw [← Bool.not_eq_true]
    exact fun ho => hlow (List.forall_mem_cons.mpr ⟨ho, hrest⟩)
  induction h with
  | leaf _ | group _ _ | applied _ _ _ | trailing _ _ _ => exact absurd (by simp) hlow
  | @leading p pop ts left right t hp ht hopen hleft ih =>
    have hopen' : (ts ++ joint :: us).head? ≠ some .opening := by
      rw [ht.head?_append]
      exact hopen
    by_cases hinner : ∀ other ∈ right, other.goesBefore op = true
    · refine ⟨_, _, .leading hp (.joined ht hjoint hu hinner (by simp)) hopen' ?_⟩
      exact List.forall_mem_cons.mpr ⟨hhead hlow hinner, hleft⟩
    · obtain ⟨edge, tree, htree⟩ := ih hinner
      exact ⟨pop :: edge, .unary p tree, .leading hp htree hopen' hleft⟩
  | @joined b bop ts ts' left right left' edge t t' ht hb ht' hright hleft ih ih' =>
    rw [List.append_assoc, List.cons_append]
    by_cases hinner : ∀ other ∈ edge, other.goesBefore op = true
    · refine ⟨_, _, .joined ht hb (.joined ht' hjoint hu hinner (by simp)) hright ?_⟩
      exact List.forall_mem_cons.mpr ⟨hhead hlow hinner, hleft⟩
    · obtain ⟨edge', tree, htree⟩ := ih' hinner
      exact ⟨bop :: edge', .binary b t tree, .joined ht hb htree hright hleft⟩

/-- An operand can be joined to an expression that is grouped already, whatever operators
stand on the right edge of that. -/
theorem exists_joined (h : Grouping ts left right t) (hjoint : joint.Joins op)
    (hu : Grouping us [] right' u) : ∃ tree, IsTreeOf tree (ts ++ joint :: us) := by
  by_cases hright : ∀ other ∈ right, other.goesBefore op = true
  · exact ⟨_, _, _, .joined h hjoint hu hright (by simp)⟩
  · obtain ⟨edge, tree, htree⟩ := h.exists_absorb hjoint hu hright
    exact ⟨tree, _, _, htree⟩

/-- Operators behind an operand are applied one after the other, from the inside out. -/
theorem exists_trailing (h : Grouping ts [] [] t) (hback : ∀ q ∈ back, ∃ op, q.Trails op) :
    ∃ tree, Grouping (ts ++ back) [] [] tree := by
  induction back generalizing ts t with
  | nil =>
    rw [List.append_nil]
    exact ⟨t, h⟩
  | cons q back ih =>
    obtain ⟨hq, hback⟩ := List.forall_mem_cons.mp hback
    obtain ⟨op, hop⟩ := hq
    obtain ⟨tree, htree⟩ := ih (.trailing h hop) hback
    rw [List.append_assoc, List.singleton_append] at htree
    exact ⟨tree, htree⟩

/-- Operators in front of an operand are applied one after the other, the last one
first. -/
theorem exists_leading (h : Grouping ts [] right t) (hopen : ts.head? ≠ some .opening)
    (hfront : ∀ p ∈ front, ∃ op, p.Leads op) :
    ∃ edge tree, Grouping (front ++ ts) [] edge tree := by
  induction front with
  | nil => exact ⟨right, t, h⟩
  | cons p front ih =>
    obtain ⟨⟨op, hop⟩, hfront⟩ := List.forall_mem_cons.mp hfront
    obtain ⟨edge, tree, htree⟩ := ih hfront
    have hopen' : (front ++ ts).head? ≠ some .opening := by
      cases front with
      | nil => exact hopen
      | cons first rest =>
        obtain ⟨op', hop'⟩ := (List.forall_mem_cons.mp hfront).1
        simpa using hop'.ne_opening
    exact ⟨op :: edge, .unary p tree, .leading hop htree hopen' (by simp)⟩

/-- A group with operators around it is an operand without a left edge. The
last operator in front takes the group alone. -/
theorem exists_group (h : Grouping ts left right t) (hfront : ∀ p ∈ front, ∃ op, p.Leads op)
    (hback : ∀ q ∈ back, ∃ op, q.Trails op) :
    ∃ edge tree, Grouping (front ++ .opening :: ts ++ .closing :: back) [] edge tree := by
  rcases List.eq_nil_or_concat front with rfl | ⟨front, p, rfl⟩
  · obtain ⟨tree, htree⟩ := exists_trailing (.group h) hback
    exact ⟨[], tree, by simpa using htree⟩
  · rw [List.concat_eq_append] at hfront ⊢
    obtain ⟨hfront, hp⟩ := List.forall_mem_append.mp hfront
    obtain ⟨op, hop⟩ := hp p (List.mem_singleton_self p)
    obtain ⟨tree, htree⟩ := exists_trailing (.applied hop h) hback
    obtain ⟨edge, tree', htree'⟩ :=
      exists_leading htree (by simpa using hop.ne_opening) hfront
    exact ⟨edge, tree', by simpa using htree'⟩

end Grouping

mutual

/-- Every well-formed sequence has a tree, by joining its operands from left to right. -/
theorem WellFormed.exists_tree {ts : List Token} : WellFormed ts → ∃ t, IsTreeOf t ts
  | .operand h => by
    obtain ⟨edge, tree, htree⟩ := h.exists_grouping
    exact ⟨tree, _, _, htree⟩
  | .joined h hjoint hu => by
    obtain ⟨t, left, right, ht⟩ := h.exists_tree
    obtain ⟨edge, u, hu⟩ := hu.exists_grouping
    exact ht.exists_joined hjoint hu

/-- Every operand has a tree with nothing open on its left edge. -/
theorem WellFormedOperand.exists_grouping {ts : List Token} :
    WellFormedOperand ts → ∃ edge tree, Grouping ts [] edge tree
  | .leaf hfront htoken hback => by
    obtain ⟨tree, htree⟩ := Grouping.exists_trailing (.leaf htoken) hback
    refine Grouping.exists_leading htree ?_ hfront
    rintro h
    cases Option.some.inj h
    cases htoken
  | .group hfront h hback => by
    obtain ⟨t, left, right, ht⟩ := h.exists_tree
    exact ht.exists_group hfront hback

end

end FormulaCalculator
