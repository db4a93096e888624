import FormulaCalculator.Proofs.Regrouping
import FormulaCalculator.Proofs.ShuntingYard
import FormulaCalculator.Proofs.WrittenText

/-!
# Reading a written expression again

The text of an expression is cut into tokens, and these are grouped as a tree,
both by the same induction over the tree that was written. The parentheses that
are written keep every operator in its place, but for a minus in front of a power
whose base is written in parentheses: it is read as a minus of the base.
-/

set_option autoImplicit false

namespace FormulaCalculator

namespace OperatorTree

variable {tree operand : OperatorTree} {op : Operator} {token : Token}

/-- The text of a tree is cut into the tokens, and they are grouped as what the
tree is read as. No operator on an edge is weaker than the one at the top. An
operator in front would come to stand on the base, if there is one. -/
structure ReadsFrom (tree : OperatorTree) (tokens : List Token) (left right : List Operator) :
    Prop where
  lexes : Lexeme.Lexes tree.written.text.toList tokens
  grouping : Grouping tokens left right tree.regrouped.syntaxTree
  bound : ∀ other ∈ left ++ right, other ∈ Operator.signs ∧
    ∃ n, tree.written.precedence = some n ∧ n ≤ other.precedence
  starts : tokens.head? = some .opening →
    tree.written.bindsBelow Token.negation.precedence = false → tree.startsWithGroup = true
  onBase : tree.startsWithGroup = true → ∀ p op, p.Leads op →
    Grouping (p :: tokens) left right (OperatorTree.putOnBase op p tree.regrouped).syntaxTree

/-- The same for the text of a tree as an operand. -/
structure StandsAs (tree : OperatorTree) (precedence : Nat) (farSide : Bool) (tokens : List Token)
    (left right : List Operator) : Prop where
  lexes : Lexeme.Lexes (tree.written.asOperand precedence farSide).toList tokens
  grouping : Grouping tokens left right tree.regrouped.syntaxTree
  bound : ∀ other ∈ left ++ right, other ∈ Operator.signs ∧ precedence ≤ other.precedence ∧
    (farSide = true → precedence < other.precedence)
  enclosed : tree.written.isEnclosed precedence farSide = true → left = [] ∧ right = [] ∧
    ∀ p op, p.Leads op → Grouping (p :: tokens) [] [] (.unary p tree.regrouped.syntaxTree)
  bare : tree.written.isEnclosed precedence farSide = false → ReadsFrom tree tokens left right

/-- What is read from the text of a tree can be read from it as an operand, with
parentheses where they are put. -/
theorem ReadsFrom.exists_standsAs {tokens : List Token} {left right : List Operator}
    (h : ReadsFrom tree tokens left right) (precedence : Nat) (farSide : Bool) :
    ∃ tokens' left' right', StandsAs tree precedence farSide tokens' left' right' := by
  cases henclosed : tree.written.isEnclosed precedence farSide with
  | true =>
    have htext : (tree.written.asOperand precedence farSide).toList =
        '(' :: tree.written.text.toList ++ [')'] := by
      have heq : tree.written.asOperand precedence farSide = tree.written.enclosed :=
        if_pos henclosed
      rw [heq, Written.enclosed]
      simp
    refine ⟨.opening :: tokens ++ [.closing], [], [], ?_, .group h.grouping, by simp, ?_, ?_⟩
    · rw [htext]
      exact h.lexes.enclosed
    · exact fun _ => ⟨rfl, rfl, fun p op hp => .applied hp h.grouping⟩
    · intro hbare
      rw [henclosed] at hbare
      cases hbare
  | false =>
    have htext : tree.written.asOperand precedence farSide = tree.written.text :=
      if_neg (Bool.eq_false_iff.mp henclosed)
    refine ⟨tokens, left, right, ?_, h.grouping, ?_, ?_, fun _ => h⟩
    · rw [htext]
      exact h.lexes
    · intro other hother
      obtain ⟨hmem, n, hn, hle⟩ := h.bound other hother
      obtain ⟨hge, hfar⟩ := Written.le_of_not_isEnclosed henclosed hn
      exact ⟨hmem, Nat.le_trans hge hle, fun hside => Nat.lt_of_lt_of_le (hfar hside) hle⟩
    · intro hbare
      rw [henclosed] at hbare
      cases hbare

/-- Signs of equal precedence associate to the same side. -/
theorem not_goesBefore_of_signs {other : Operator} (hop : op ∈ Operator.signs)
    (hother : other ∈ Operator.signs) (hle : op.precedence ≤ other.precedence)
    (hlt : op.associativity ≠ .right → op.precedence < other.precedence) :
    op.goesBefore other = false := by
  have htable : ∀ op ∈ Operator.signs, ∀ other ∈ Operator.signs,
      op.precedence = other.precedence → op.associativity = other.associativity := by
    decide
  rcases Nat.lt_or_eq_of_le hle with hless | heq
  · exact Operator.not_goesBefore_of_lt hless
  · have hassoc : op.associativity = .right := by
      by_contra hne
      exact absurd (hlt hne) (by omega)
    rw [htable op hop other hother heq] at hassoc
    exact Operator.not_goesBefore_of_right hassoc hle

/-- A number or a name is read from its own text. -/
theorem readsFrom_leaf (hlexes : Lexeme.Lexes token.symbol.toList [token])
    (hoperand : token.isOperand = true) : ReadsFrom (.leaf token) [token] [] [] := by
  refine ⟨hlexes, .leaf hoperand, by simp, fun hhead => ?_, fun hgroup => ?_⟩
  · obtain rfl := Option.some.inj hhead
    cases hoperand
  · cases hgroup

/-- A call is read from its text, with the parentheses of the call. -/
theorem exists_readsFrom_call {tokens : List Token} {left right : List Operator}
    (hmem : op ∈ Operator.functions) (h : ReadsFrom operand tokens left right) :
    ∃ tokens' left' right',
      ReadsFrom (.unary op (.call op.symbol) operand) tokens' left' right' := by
  have htable : ∀ op ∈ Operator.functions, isNamed op.symbol = true ∧
      typedSign op.symbol = op.symbol := by
    decide
  obtain ⟨hnamed, hsign⟩ := htable op hmem
  have hleads : (Token.call op.symbol).Leads op := .call (Operator.operator?_of_mem_functions hmem)
  have hgrabs : grabsGroup op (typedSign (Token.call op.symbol).symbol) operand = false := by
    rw [grabsGroup, Token.symbol, hsign, hnamed]
    rfl
  refine ⟨.call op.symbol :: .opening :: tokens ++ [.closing], [], [], ?_, ?_, by simp, by simp, ?_⟩
  · have htext : (unary op (.call op.symbol) operand).written.text.toList =
        op.symbol.toList ++ ('(' :: operand.written.text.toList ++ [')']) := by
      rw [written, writeUnary, Token.symbol, hsign, if_pos hnamed, Written.enclosed]
      simp
    rw [htext]
    exact h.lexes.called (Operator.isName_of_mem_functions hmem)
  · rw [regrouped_of_not_grabsGroup hgrabs]
    exact .applied hleads h.grouping
  · intro hgroup
    cases hgroup

/-- In front of an operand without parentheses of its own, a minus takes the group that
the text of the operand starts with, if it starts with one. -/
theorem grabsGroup_minus (h : operand.written.isEnclosed Token.negation.precedence false = false) :
    grabsGroup Token.negation (typedSign "-") operand = operand.startsWithGroup := by
  have hsign : typedSign "-" = "-" := rfl
  rw [grabsGroup, hsign, isNamed_minus, h]
  rfl

/-- An operand with a minus in front is read from its text, but the minus may come to
stand on the base of a power. -/
theorem exists_readsFrom_negated {tokens : List Token} {left right : List Operator}
    (h : StandsAs operand Token.negation.precedence false tokens left right) :
    ∃ tokens' left' right',
      ReadsFrom (.unary Token.negation (.unary "-") operand) tokens' left' right' := by
  have hleads : (Token.unary "-").Leads Token.negation := .unary rfl rfl
  have hlexes : Lexeme.Lexes (unary Token.negation (.unary "-") operand).written.text.toList
      (.unary "-" :: tokens) := by
    have hsign : typedSign (Token.unary "-").symbol = "-" := rfl
    have htext : (writeUnary Token.negation "-" operand.written).text =
        "-" ++ operand.written.asOperand Token.negation.precedence false := by
      rw [writeUnary, isNamed_minus]
      rfl
    rw [written, hsign, htext, String.toList_append]
    exact h.lexes.negated
  have hbound (other : Operator) (hother : other ∈ left ++ right) : other ∈ Operator.signs ∧
      ∃ n, some Token.negation.precedence = some n ∧ n ≤ other.precedence := by
    obtain ⟨hmem, hle, -⟩ := h.bound other hother
    exact ⟨hmem, _, rfl, hle⟩
  have hnegation : Token.negation ∈ Operator.signs ∧
      ∃ n, some Token.negation.precedence = some n ∧ n ≤ Token.negation.precedence :=
    ⟨by decide, _, rfl, Nat.le_refl _⟩
  have hreads {left' right' : List Operator} {t : OperatorTree}
      (hregrouped : (unary Token.negation (.unary "-") operand).regrouped = t)
      (hgrouping : Grouping (.unary "-" :: tokens) left' right' t.syntaxTree)
      (hbound : ∀ other ∈ left' ++ right', other ∈ Operator.signs ∧
        ∃ n, some Token.negation.precedence = some n ∧ n ≤ other.precedence) :
      ReadsFrom (.unary Token.negation (.unary "-") operand) (.unary "-" :: tokens)
        left' right' := by
    rw [← hregrouped] at hgrouping
    exact ⟨hlexes, hgrouping, hbound, by simp, fun hgroup => by cases hgroup⟩
  -- the minus takes the operand as a group, the base that the operand starts with, or goes on
  -- over the operators on the left edge of the operand
  cases henclosed : operand.written.isEnclosed Token.negation.precedence false with
  | true =>
    obtain ⟨-, -, happlied⟩ := h.enclosed henclosed
    have hgrabs : grabsGroup Token.negation (typedSign "-") operand = false := by
      rw [grabsGroup, henclosed]
      simp
    exact ⟨_, [], [], hreads (regrouped_of_not_grabsGroup hgrabs) (happlied _ _ hleads) (by simp)⟩
  | false =>
    have hbare := h.bare henclosed
    have hgrabs := grabsGroup_minus henclosed
    cases hstarts : operand.startsWithGroup with
    | true =>
      rw [hstarts] at hgrabs
      exact ⟨_, left, right, hreads (regrouped_of_grabsGroup hgrabs)
        (hbare.onBase hstarts _ _ hleads) hbound⟩
    | false =>
      rw [hstarts] at hgrabs
      have hhead : tokens.head? ≠ some .opening := by
        intro hhead
        have hbelow : operand.written.bindsBelow Token.negation.precedence = false := by
          rw [Written.isEnclosed, Bool.or_eq_false_iff] at henclosed
          exact henclosed.1
        rw [hbare.starts hhead hbelow] at hstarts
        cases hstarts
      have hleft (other : Operator) (hother : other ∈ left) :
          Token.negation.goesBefore other = false := by
        obtain ⟨hmem, hle, -⟩ := h.bound other (List.mem_append_left _ hother)
        exact not_goesBefore_of_signs (by decide) hmem hle (by simp [Token.negation])
      refine ⟨_, [], Token.negation :: right, hreads (regrouped_of_not_grabsGroup hgrabs)
        (.leading hleads h.grouping hhead hleft) ?_⟩
      exact List.forall_mem_cons.mpr
        ⟨hnegation, fun other hother => hbound other (List.mem_append_right _ hother)⟩

/-- The sign of an operator that can be typed is a single character, which is no
parenthesis. -/
theorem exists_char_of_signs (hmem : op ∈ Operator.signs) :
    ∃ first, op.symbol.toList = [first] ∧ Scan.operatorSigns.contains first = true ∧
      op.symbol ≠ "(" ∧ op.symbol ≠ ")" ∧ typedSign op.symbol = op.symbol := by
  have htable : ∀ op ∈ Operator.signs, op.symbol.toList.length = 1 ∧ op.symbol ≠ "(" ∧
      op.symbol ≠ ")" ∧ typedSign op.symbol = op.symbol := by
    decide
  obtain ⟨hlength, hrest⟩ := htable op hmem
  obtain ⟨first, hfirst⟩ := List.length_eq_one_iff.mp hlength
  have hall := (List.mem_filter.mp hmem).2
  rw [hfirst] at hall
  exact ⟨first, hfirst, by simpa using hall, hrest⟩

/-- If a binary operator is at least as strong as a minus, its left operand is
written with a group in front only if it is one. -/
theorem isEnclosed_of_head? {l : OperatorTree} {tokens : List Token} {left right : List Operator}
    (hmem : op ∈ Operator.signs) (hl : l.Typable)
    (h : StandsAs l op.precedence (op.associativity ≠ .left) tokens left right)
    (hhead : tokens.head? = some .opening) (hge : Token.negation.precedence ≤ op.precedence) :
    l.written.isEnclosed op.precedence (op.associativity ≠ .left) = true := by
  have htable : ∀ op ∈ Operator.signs, op.precedence ≤ Token.negation.precedence ∧
      (op.precedence = Token.negation.precedence → op.associativity = .right) := by
    decide
  obtain ⟨hle, hassoc⟩ := htable op hmem
  have heq : op.precedence = Token.negation.precedence := Nat.le_antisymm hle hge
  by_contra hbare
  rw [Bool.not_eq_true] at hbare
  have hbelow : l.written.bindsBelow Token.negation.precedence = false := by
    rw [Written.isEnclosed, Bool.or_eq_false_iff, heq] at hbare
    exact hbare.1
  obtain ⟨op', joint, l', r', rfl, -⟩ :=
    exists_binary_of_startsWithGroup ((h.bare hbare).starts hhead hbelow)
  have hfar : op.precedence < op'.precedence :=
    (Written.le_of_not_isEnclosed hbare rfl).2 (by rw [hassoc heq]; decide)
  cases hl with
  | binary hmem' _ _ _ =>
    have hle' := (htable op' hmem').1
    omega

/-- Two operands with a sign between them are read from their text, for they are put in
parentheses where they would be taken apart. -/
theorem exists_readsFrom_binary {l r : OperatorTree} {tokens tokens' : List Token}
    {left right left' right' : List Operator} (hmem : op ∈ Operator.signs)
    (harity : op.arity = .binary) (hl : l.Typable)
    (h : StandsAs l op.precedence (op.associativity ≠ .left) tokens left right)
    (h' : StandsAs r op.precedence (op.associativity ≠ .right) tokens' left' right') :
    ∃ tokens left right, ReadsFrom (.binary op (.binary op.symbol) l r) tokens left right := by
  have hjoins : (Token.binary op.symbol).Joins op :=
    .binary (Operator.find?_of_mem_signs hmem harity)
  have hright (other : Operator) (hother : other ∈ right) : other.goesBefore op = true := by
    obtain ⟨-, hle, hlt⟩ := h.bound other (List.mem_append_right _ hother)
    by_cases hassoc : op.associativity = .left
    · exact Operator.goesBefore_of_left hassoc hle
    · exact Operator.goesBefore_of_lt (hlt (by simpa using hassoc))
  have hleft (other : Operator) (hother : other ∈ left') : op.goesBefore other = false := by
    obtain ⟨hmem', hle, hlt⟩ := h'.bound other (List.mem_append_left _ hother)
    exact not_goesBefore_of_signs hmem hmem' hle fun hassoc => hlt (by simpa using hassoc)
  have hjoined {ts : List Token} {edge edge' : List Operator} {t : SyntaxTree}
      (ht : Grouping ts edge edge' t) (hedge : ∀ other ∈ edge', other.goesBefore op = true) :
      Grouping (ts ++ .binary op.symbol :: tokens') (op :: edge) (op :: right')
        (.binary (.binary op.symbol) t r.regrouped.syntaxTree) :=
    .joined ht hjoins h'.grouping hedge hleft
  refine ⟨tokens ++ .binary op.symbol :: tokens', op :: left, op :: right', ?_, ?_, ?_, ?_, ?_⟩
  · obtain ⟨first, hfirst, hcontains, hopening, hclosing, hsign⟩ := exists_char_of_signs hmem
    have htext : (binary op (.binary op.symbol) l r).written.text.toList =
        (l.written.asOperand op.precedence (op.associativity ≠ .left)).toList ++
          ' ' :: first :: ' ' ::
            (r.written.asOperand op.precedence (op.associativity ≠ .right)).toList := by
      rw [written, Token.symbol, hsign, writeBinary]
      simp [hfirst]
    rw [htext]
    exact h.lexes.joined hfirst hcontains hopening hclosing h'.lexes
  · exact hjoined h.grouping hright
  · have hself : op ∈ Operator.signs ∧ ∃ n, some op.precedence = some n ∧ n ≤ op.precedence :=
      ⟨hmem, _, rfl, Nat.le_refl _⟩
    refine List.forall_mem_append.mpr ⟨List.forall_mem_cons.mpr ⟨hself, fun other hother => ?_⟩,
      List.forall_mem_cons.mpr ⟨hself, fun other hother => ?_⟩⟩
    · obtain ⟨hmem', hle, -⟩ := h.bound other (List.mem_append_left _ hother)
      exact ⟨hmem', _, rfl, hle⟩
    · obtain ⟨hmem', hle, -⟩ := h'.bound other (List.mem_append_right _ hother)
      exact ⟨hmem', _, rfl, hle⟩
  · intro hhead hbelow
    rw [h.grouping.head?_append] at hhead
    have hge : Token.negation.precedence ≤ op.precedence := by
      simpa [written, writeBinary, Written.bindsBelow] using hbelow
    exact isEnclosed_of_head? hmem hl h hhead hge
  -- An operator in front comes to stand on the left operand, which is a group.
  · intro hgroup p pop hp
    obtain ⟨rfl, rfl, happlied⟩ := h.enclosed hgroup
    exact hjoined (happlied p pop hp) (by simp)

/-- The text of the tree of a formula is read as the tree with a minus moved onto
the base of every power that it would otherwise stand in front of. -/
theorem Typable.exists_readsFrom (h : tree.Typable) :
    ∃ tokens left right, ReadsFrom tree tokens left right := by
  induction h with
  | @number value hvalue =>
    refine ⟨_, [], [], readsFrom_leaf ?_ rfl⟩
    rw [Token.symbol, Number.toText, String.toList_ofList]
    exact Lexeme.lexes_number hvalue
  | argument => exact ⟨_, [], [], readsFrom_leaf Lexeme.lexes_argument rfl⟩
  | constant hname hne => exact ⟨_, [], [], readsFrom_leaf (Lexeme.lexes_constant hname hne) rfl⟩
  | negated _ ih =>
    obtain ⟨_, _, _, hreads⟩ := ih
    obtain ⟨_, _, _, hstands⟩ := hreads.exists_standsAs Token.negation.precedence false
    exact exists_readsFrom_negated hstands
  | call hmem _ ih =>
    obtain ⟨_, _, _, hreads⟩ := ih
    exact exists_readsFrom_call hmem hreads
  | @binary op l r hmem harity hl _ ihl ihr =>
    obtain ⟨_, _, _, hreads⟩ := ihl
    obtain ⟨_, _, _, hreads'⟩ := ihr
    obtain ⟨_, _, _, hstands⟩ := hreads.exists_standsAs op.precedence (op.associativity ≠ .left)
    obtain ⟨_, _, _, hstands'⟩ := hreads'.exists_standsAs op.precedence (op.associativity ≠ .right)
    exact exists_readsFrom_binary hmem harity hl hstands hstands'

/-- The text of a tree that can be typed is read as its postfix order, regrouped. -/
theorem Typable.ofText_written (h : tree.Typable) :
    Postfix.ofText tree.written.text = .ok ⟨tree.regrouped.postorder⟩ := by
  obtain ⟨tokens, left, right, hreads⟩ := h.exists_readsFrom
  obtain ⟨last, -, heq⟩ := hreads.lexes none [] rfl (by simp [Lexeme.FollowsPart])
  have hend : Lexeme.tokensFrom (some last) [] = [] := Lexeme.tokensFrom_of_blank rfl
  rw [hend, List.append_nil, List.append_nil] at heq
  rw [Postfix.ofText, Lexed.tokens_ofText, heq]
  exact Postfix.ofTokens_eq_of_isTreeOf ⟨left, right, hreads.grouping⟩

end OperatorTree

namespace Postfix

/-- A typed expression with finite numbers and a value is written so that it is
read as its regrouped tree, which has a value too. It is read as the expression
that it was exactly if no minus is written in front of a group that is the base
of a power, and then it has the value that it had. -/
theorem ofText_toText {text : String} {expression : Postfix} {bindings : Bindings} {value : Float}
    (hread : ofText text = .ok expression)
    (hfinite : ∀ number, .number number ∈ expression.tokens → number.isFinite = true)
    (hvalue : expression.evaluate bindings = .ok value) :
    ∃ tree again v, expression.tree? = some tree ∧ ofText expression.toText = .ok again ∧
      again = ⟨tree.regrouped.postorder⟩ ∧ again.evaluate bindings = .ok v ∧
      (again = expression ↔ tree.keepsGroups = true) ∧ (tree.keepsGroups = true → v = value) := by
  obtain ⟨tree, htree, hvalue'⟩ := evaluate_eq_ok_iff.mp hvalue
  obtain ⟨hsound, rfl⟩ := OperatorTree.eq_postorder_of_tree? htree
  have htypable : tree.Typable :=
    hvalue'.typable hsound (exists_typedBefore_of_ofText hread) hfinite
  have htext : toText ⟨tree.postorder⟩ = tree.written.text := by
    rw [toText, htree]
  have hagain : Postfix.mk tree.regrouped.postorder = ⟨tree.postorder⟩ ↔
      tree.keepsGroups = true := by
    rw [← OperatorTree.regrouped_eq_iff]
    constructor
    · intro hsame
      exact htypable.regrouped.sound.postorder_inj hsound (congrArg Postfix.tokens hsame)
    · intro hregrouped
      rw [hregrouped]
  obtain ⟨v, hv⟩ := hvalue'.exists_regrouped
  have hv' := hv.evaluate_postorder
  refine ⟨tree, _, v, htree, ?_, rfl, hv', hagain, fun hkeeps => ?_⟩
  · rw [htext]
    exact htypable.ofText_written
  · rw [hagain.mpr hkeeps, hvalue] at hv'
    exact (Except.ok.inj hv').symm

/-- The postfix order of `-((1+2)^2)`, a power of a sum with a minus in front. -/
def negatedPower : Postfix :=
  ⟨[.number 1, .number 2, .binary "+", .number 2, .binary "^", .unary "-"]⟩

/-- The parentheses around the power are not written. -/
example : negatedPower.toText = "-(1 + 2) ^ 2" := by
  decide +kernel

/-- So the minus is read as one in front of the sum. -/
example : ofText "-(1 + 2) ^ 2" =
    .ok ⟨[.number 1, .number 2, .binary "+", .unary "-", .number 2, .binary "^"]⟩ := by
  decide +kernel

/-- The negated square of a sum is written without the parentheses that it needs, and is
read as the square of the negated sum. -/
theorem ofText_toText_negatedPower :
    ofText "-((1+2)^2)" = .ok negatedPower ∧
      (∀ number, .number number ∈ negatedPower.tokens → number.isFinite = true) ∧
      negatedPower.evaluate .constants = .ok (-Float.pow (1 + 2) 2) ∧
      ∃ tree again v, negatedPower.tree? = some tree ∧ ofText negatedPower.toText = .ok again ∧
        again = ⟨tree.regrouped.postorder⟩ ∧ again.evaluate .constants = .ok v ∧
        (again = negatedPower ↔ tree.keepsGroups = true) ∧
        (tree.keepsGroups = true → v = -Float.pow (1 + 2) 2) := by
  have hread : ofText "-((1+2)^2)" = .ok negatedPower := by
    decide +kernel
  have hfinite (number : Float) (hmem : .number number ∈ negatedPower.tokens) :
      number.isFinite = true := by
    simp only [negatedPower, List.mem_cons, Token.number.injEq, reduceCtorEq, false_or, or_false,
      List.not_mem_nil] at hmem
    rcases hmem with rfl | rfl | rfl <;> decide +kernel
  have hvalue : negatedPower.evaluate .constants = .ok (-Float.pow (1 + 2) 2) := rfl
  exact ⟨hread, hfinite, hvalue, ofText_toText hread hfinite hvalue⟩

end Postfix

end FormulaCalculator
