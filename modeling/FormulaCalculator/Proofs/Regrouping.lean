import FormulaCalculator.Postfix.Written
import FormulaCalculator.Proofs.TypedTree

/-!
# What written trees are read as

Parentheses are written where precedences call for them. An operator directly in
front of a group takes the group and no more. So where an operator is written in
front of a tree whose left operand stands in parentheses, it is read as an
operator of that operand. The tree that is read still is the tree of a formula,
and has a value if the tree that was written has one.
-/

set_option autoImplicit false

namespace FormulaCalculator

/-- Whether the text stands in parentheses as an operand of an operator. -/
def Written.isEnclosed (written : Written) (precedence : Nat) (farSide : Bool) : Bool :=
  written.bindsBelow precedence || (farSide && written.precedence = some precedence)

/-- An operator whose text needs no parentheses is not weaker than the one it
stands under, and stronger on the far side. -/
theorem Written.le_of_not_isEnclosed {written : Written} {precedence n : Nat} {farSide : Bool}
    (h : written.isEnclosed precedence farSide = false) (hn : written.precedence = some n) :
    precedence ≤ n ∧ (farSide = true → precedence < n) := by
  rw [isEnclosed, bindsBelow, hn] at h
  simp only [Option.any_some, Bool.or_eq_false_iff, decide_eq_false_iff_not, Nat.not_lt,
    Option.some.injEq, Bool.and_eq_false_iff] at h
  obtain ⟨hge, hfar⟩ := h
  refine ⟨hge, fun hside => ?_⟩
  rcases hfar with hside' | hne
  · rw [hside] at hside'
    cases hside'
  · omega

/-- On the far side of an operator a text is put in parentheses if it binds no tighter
than the operator. -/
theorem Written.isEnclosed_farSide_iff {written : Written} {precedence : Nat} :
    written.isEnclosed precedence true = true ↔
      ∃ n, written.precedence = some n ∧ n ≤ precedence := by
  rw [isEnclosed, bindsBelow]
  cases written.precedence with
  | none => simp
  | some n =>
    simp only [Option.any_some, Bool.true_and, Bool.or_eq_true, decide_eq_true_eq,
      Option.some.injEq, exists_eq_left']
    omega

namespace OperatorTree

/-- Whether the text of a tree starts with a group that is its left operand. -/
def startsWithGroup : OperatorTree → Bool
  | .binary op _ left _ => left.written.isEnclosed op.precedence (op.associativity ≠ .left)
  | _ => false

/-- Whether an operator is written as a sign directly in front of such a group. -/
def grabsGroup (op : Operator) (sign : String) (operand : OperatorTree) : Bool :=
  !isNamed sign && !operand.written.isEnclosed op.precedence false && operand.startsWithGroup

/-- Puts an operator in front of the left operand of a tree. -/
def putOnBase (op : Operator) (token : Token) : OperatorTree → OperatorTree
  | .binary op' joint left right => .binary op' joint (.unary op token left) right
  | operand => .unary op token operand

/-- The tree that the text of a tree is read as. -/
def regrouped : OperatorTree → OperatorTree
  | .leaf token => .leaf token
  | .unary op token operand =>
    if grabsGroup op (typedSign token.symbol) operand then putOnBase op token operand.regrouped
    else .unary op token operand.regrouped
  | .binary op joint left right => .binary op joint left.regrouped right.regrouped

/-- Whether no operator is written directly in front of a group that is only a
part of its operand. -/
def keepsGroups : OperatorTree → Bool
  | .leaf _ => true
  | .unary op token operand =>
    !grabsGroup op (typedSign token.symbol) operand && operand.keepsGroups
  | .binary _ _ left right => left.keepsGroups && right.keepsGroups

variable {tree operand : OperatorTree} {op : Operator} {token : Token}

/-- A text that starts with a group which is a left operand is that of a binary operator,
with the left operand in parentheses. -/
theorem exists_binary_of_startsWithGroup (h : operand.startsWithGroup = true) :
    ∃ op joint left right, operand = .binary op joint left right ∧
      left.written.isEnclosed op.precedence (op.associativity ≠ .left) = true := by
  cases operand with
  | leaf _ | unary _ _ _ => cases h
  | binary op joint left right => exact ⟨op, joint, left, right, rfl, h⟩

/-- An operator that is written directly in front of a group comes to stand on the
base. -/
theorem regrouped_of_grabsGroup (h : grabsGroup op (typedSign token.symbol) operand = true) :
    (unary op token operand).regrouped = putOnBase op token operand.regrouped := by
  rw [regrouped, if_pos h]

/-- Any other operator keeps the whole of its operand. -/
theorem regrouped_of_not_grabsGroup
    (h : grabsGroup op (typedSign token.symbol) operand = false) :
    (unary op token operand).regrouped = .unary op token operand.regrouped := by
  rw [regrouped, if_neg (Bool.eq_false_iff.mp h)]

/-- A tree is read as itself exactly if its operators leave the groups alone. -/
theorem regrouped_eq_iff : tree.regrouped = tree ↔ tree.keepsGroups = true := by
  induction tree with
  | leaf token => simp [regrouped, keepsGroups]
  | unary op token operand ih =>
    cases hgrabs : grabsGroup op (typedSign token.symbol) operand with
    | true =>
      have hstarts : operand.startsWithGroup = true := by
        simp only [grabsGroup, Bool.and_eq_true] at hgrabs
        exact hgrabs.2
      obtain ⟨op', joint, left, right, rfl, -⟩ := exists_binary_of_startsWithGroup hstarts
      rw [regrouped_of_grabsGroup hgrabs]
      simp [keepsGroups, hgrabs, regrouped, putOnBase]
    | false =>
      rw [regrouped_of_not_grabsGroup hgrabs]
      simp [keepsGroups, hgrabs, ih]
  | binary op joint left right ihl ihr => simp [regrouped, keepsGroups, ihl, ihr]

section Values

variable {bindings : Bindings} {value : Float}

/-- Putting an operator on the base of a tree leaves it with a value, whatever
the operator makes of the base. -/
theorem HasValue.exists_putOnBase (h : tree.HasValue bindings value)
    (hunary : ∀ operand o, HasValue bindings operand o →
      ∃ v, HasValue bindings (.unary op token operand) v) :
    ∃ v, (putOnBase op token tree).HasValue bindings v := by
  cases h with
  | number => exact hunary _ _ .number
  | argument hget => exact hunary _ _ (.argument hget)
  | constant hget => exact hunary _ _ (.constant hget)
  | unary ho happly => exact hunary _ _ (.unary ho happly)
  | call ho happly => exact hunary _ _ (.call ho happly)
  | binary hl hr happly =>
    obtain ⟨f, hf, -⟩ := Option.map_eq_some_iff.mp happly
    obtain ⟨v, hv⟩ := hunary _ _ hl
    exact ⟨_, .binary hv hr (Option.map_eq_some_iff.mpr ⟨f, hf, rfl⟩)⟩

/-- If a tree has a value, so has the tree that its text is read as, though it may be
another one. -/
theorem HasValue.exists_regrouped (h : tree.HasValue bindings value) :
    ∃ v, tree.regrouped.HasValue bindings v := by
  have hunary {op : Operator} {token : Token} {operand : OperatorTree} {o : Float}
      (ho : operand.regrouped.HasValue bindings o)
      (htotal : ∀ operand o, HasValue bindings operand o →
        ∃ v, HasValue bindings (.unary op token operand) v) :
      ∃ v, (OperatorTree.unary op token operand).regrouped.HasValue bindings v := by
    cases hgrabs : grabsGroup op (typedSign token.symbol) operand with
    | true =>
      rw [regrouped_of_grabsGroup hgrabs]
      exact ho.exists_putOnBase htotal
    | false =>
      rw [regrouped_of_not_grabsGroup hgrabs]
      exact htotal _ _ ho
  induction h with
  | number => exact ⟨_, .number⟩
  | argument hget => exact ⟨_, .argument hget⟩
  | constant hget => exact ⟨_, .constant hget⟩
  | unary _ happly ih =>
    obtain ⟨f, hf, -⟩ := Option.map_eq_some_iff.mp happly
    obtain ⟨o, ho⟩ := ih
    exact hunary ho fun _ _ h => ⟨_, .unary h (Option.map_eq_some_iff.mpr ⟨f, hf, rfl⟩)⟩
  | call _ happly ih =>
    obtain ⟨f, hf, -⟩ := Option.map_eq_some_iff.mp happly
    obtain ⟨o, ho⟩ := ih
    exact hunary ho fun _ _ h => ⟨_, .call h (Option.map_eq_some_iff.mpr ⟨f, hf, rfl⟩)⟩
  | binary _ _ happly ihl ihr =>
    obtain ⟨f, hf, -⟩ := Option.map_eq_some_iff.mp happly
    obtain ⟨l, hl⟩ := ihl
    obtain ⟨r, hr⟩ := ihr
    exact ⟨_, .binary hl hr (Option.map_eq_some_iff.mpr ⟨f, hf, rfl⟩)⟩

end Values

/-- A minus that comes to stand on the base is one that can be typed. -/
theorem Typable.putOnBase (h : tree.Typable) :
    (OperatorTree.putOnBase Token.negation (.unary "-") tree).Typable := by
  cases h with
  | number hvalue => exact .negated (.number hvalue)
  | argument => exact .negated .argument
  | constant hname hne => exact .negated (.constant hname hne)
  | negated ho => exact .negated (.negated ho)
  | call hmem ho => exact .negated (.call hmem ho)
  | binary hmem harity hl hr => exact .binary hmem harity (.negated hl) hr

/-- The tree that a text is read as can be typed, if the tree that was written can. -/
theorem Typable.regrouped (h : tree.Typable) : tree.regrouped.Typable := by
  induction h with
  | number hvalue => exact .number hvalue
  | argument => exact .argument
  | constant hname hne => exact .constant hname hne
  | @negated operand _ ih =>
    rw [OperatorTree.regrouped]
    split
    · exact ih.putOnBase
    · exact .negated ih
  | @call op operand hmem _ ih =>
    have hnamed : ∀ op ∈ Operator.functions, isNamed (typedSign op.symbol) = true := by
      decide
    have hgrabs : grabsGroup op (typedSign (Token.call op.symbol).symbol) operand = false := by
      rw [grabsGroup, Token.symbol, hnamed op hmem]
      rfl
    rw [regrouped_of_not_grabsGroup hgrabs]
    exact .call hmem ih
  | binary hmem harity _ _ ihl ihr => exact .binary hmem harity ihl ihr

/-- The minus is written as a sign and not as a name. -/
theorem isNamed_minus : isNamed "-" = false := by
  decide +kernel

/-- The only group that a minus takes from a longer operand is the base of a power,
where the base is an operation that is not stronger than the power. -/
theorem Typable.grabsGroup_minus_iff (h : operand.Typable) :
    grabsGroup Token.negation "-" operand = true ↔
      ∃ base exponent, operand = .binary Token.caret (.binary "^") base exponent ∧
        ∃ n, base.written.precedence = some n ∧ n ≤ Token.caret.precedence := by
  have htable : ∀ op ∈ Operator.signs, op.arity = .binary →
      Token.negation.precedence ≤ op.precedence → op = Token.caret := by
    decide
  constructor
  · intro hgrabs
    simp only [grabsGroup, Bool.and_eq_true, Bool.not_eq_true'] at hgrabs
    obtain ⟨⟨-, hbare⟩, hstarts⟩ := hgrabs
    obtain ⟨op, joint, base, exponent, rfl, henclosed⟩ := exists_binary_of_startsWithGroup hstarts
    cases h with
    | binary hmem harity _ _ =>
      obtain rfl := htable op hmem harity (Written.le_of_not_isEnclosed hbare rfl).1
      exact ⟨base, exponent, rfl, Written.isEnclosed_farSide_iff.mp henclosed⟩
  · rintro ⟨base, exponent, rfl, hbase⟩
    have hstarts :
        (OperatorTree.binary Token.caret (.binary "^") base exponent).startsWithGroup = true :=
      Written.isEnclosed_farSide_iff.mpr hbase
    have hbare : (OperatorTree.binary Token.caret (.binary "^") base exponent).written.isEnclosed
        Token.negation.precedence false = false := rfl
    rw [grabsGroup, isNamed_minus, hbare, hstarts]
    rfl

end OperatorTree

end FormulaCalculator
