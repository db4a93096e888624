import FormulaCalculator.Proofs.ShuntingYard
import FormulaCalculator.Proofs.SpelledTree

/-!
# What the text of a keyed tree determines

The tokens that spell a keyed tree have one tree by precedence and associativity,
with a mark at every group. Without its marks it is the tree that the text shows. So
two keyed trees have the same text exactly if the same tree is shown.

A square behind a root or a reciprocal is read as the square of what they are taken
of. So the text of the square of a root is also that of the root of a square, and
only where no such square is taken does the text determine the value.
-/

set_option autoImplicit false

namespace FormulaCalculator

open Token

/-- The tree without the marks of its groups. -/
def SyntaxTree.unmarked : SyntaxTree → SyntaxTree
  | .leaf token => .leaf token
  | .unary token operand =>
    if token = groupMark then operand.unmarked else .unary token operand.unmarked
  | .dangling token operand => .dangling token operand.unmarked
  | .binary token left right => .binary token left.unmarked right.unmarked

namespace Operator

variable {op : Operator}

/-- A function stands in front of its argument, and a square behind the call is one of the
whole call. -/
theorem front_of_isNamed (hmem : op ∈ table) (hnamed : OperatorTree.isNamed op.symbol = true) :
    op.followsOperand = false ∧ op.yieldsSquare = false := by
  have hfront : ∀ op ∈ table, square.precedence < op.precedence →
      op.followsOperand = false ∧ op.yieldsSquare = false := by
    decide
  rw [isNamed_eq op hmem, decide_eq_true_eq] at hnamed
  exact hfront op hmem hnamed

/-- No operator that is written as a sign binds tighter than the square. -/
theorem le_square_of_not_isNamed (hmem : op ∈ table)
    (hnamed : OperatorTree.isNamed op.symbol = false) : op.precedence ≤ square.precedence := by
  rw [isNamed_eq op hmem, decide_eq_false_iff_not] at hnamed
  exact Nat.le_of_not_lt hnamed

/-- Every binary operator binds looser than the square. -/
theorem lt_square_of_binary :
    ∀ op ∈ table, op.arity = .binary → op.precedence < square.precedence := by
  decide

end Operator

namespace OperatorTree

variable {tree operand : OperatorTree} {op : Operator} {tokens ts : List Token}
  {bound bound' : Operator → Prop}

/-- The token of the square. -/
def squareToken : Token := .unary "x²"

/-- Puts a number of squares behind the operand that a text ends with. -/
def attachSquares (count : Nat) (tree : OperatorTree) : OperatorTree :=
  (attach .square squareToken)^[count] tree

/-- The tokens are grouped as a tree and are no bare group. The operators on the
edges of the tree are within a bound, and those on its left edge are binary. -/
def ShowsAs (tokens : List Token) (tree : OperatorTree) (bound : Operator → Prop) : Prop :=
  ∃ left right t, Grouping tokens left right t ∧ t.unmarked = tree.syntaxTree ∧
    tokens.head? ≠ some .opening ∧
    (∀ other ∈ left, other ∈ Operator.table ∧ other.arity = .binary) ∧
    ∀ other ∈ left ++ right, bound other

/-- A bound of the edges can be replaced by a weaker one. -/
theorem ShowsAs.mono (h : ShowsAs tokens tree bound)
    (hbound : ∀ other, bound other → bound' other) : ShowsAs tokens tree bound' := by
  obtain ⟨left, right, t, hgrouping, ht, hhead, hleft, hall⟩ := h
  exact ⟨left, right, t, hgrouping, ht, hhead, hleft, fun other hother => hbound _ (hall _ hother)⟩

/-- Squares behind a leaf, a call or a group are taken of it. -/
theorem showsAs_closed {t : SyntaxTree} (h : Grouping ts [] [] t)
    (ht : t.unmarked = tree.syntaxTree) (hhead : ts.head? ≠ some .opening)
    (hyields : tree.yieldsSquare = false) (count : Nat) :
    ShowsAs (ts ++ List.replicate count squareToken) (tree.attachSquares count) bound := by
  have hrun : ∃ t, Grouping (ts ++ List.replicate count squareToken) [] [] t ∧
      t.unmarked = (tree.attachSquares count).syntaxTree ∧
      (tree.attachSquares count).yieldsSquare = false := by
    -- A square does not yield to the next one either, which is taken of it.
    induction count with
    | zero => exact ⟨t, by simpa using h, ht, hyields⟩
    | succ count ih =>
      obtain ⟨t', ht', htree, hyields'⟩ := ih
      have hattach : tree.attachSquares (count + 1) =
          .unary .square squareToken (tree.attachSquares count) := by
        rw [attachSquares, Function.iterate_succ_apply']
        exact attach_of_not_yieldsSquare hyields'
      have htrails : squareToken.Trails .square := .unary rfl rfl
      refine ⟨.unary squareToken t', ?_, ?_, ?_⟩
      · rw [List.replicate_succ', ← List.append_assoc]
        exact .trailing ht' htrails
      · rw [hattach, SyntaxTree.unmarked, htree]
        rfl
      · rw [hattach]
        rfl
  obtain ⟨t', ht', htree, -⟩ := hrun
  refine ⟨[], [], t', ht', htree, ?_, by simp, by simp⟩
  rw [h.head?_append]
  exact hhead

/-- A sign in front of an operand goes on over the operators that bind as much. -/
theorem showsAs_leading (hmem : op ∈ Operator.table) (harity : op.arity = .unary)
    (hfront : op.followsOperand = false)
    (h : ShowsAs tokens tree fun other => op.precedence ≤ other.precedence) :
    ShowsAs (.unary op.symbol :: tokens) (.unary op (.unary op.symbol) tree)
      fun other => op.precedence ≤ other.precedence := by
  have hgoes : ∀ op ∈ Operator.table, op.arity = .unary → op.followsOperand = false →
      ∀ other ∈ Operator.table, other.arity = .binary → op.precedence ≤ other.precedence →
        op.goesBefore other = false := by
    decide
  have hleads : (Token.unary op.symbol).Leads op :=
    .unary (Operator.find?_of_arity hmem harity) hfront
  obtain ⟨left, right, t, hgrouping, ht, hhead, hleft, hall⟩ := h
  refine ⟨[], op :: right, .unary (.unary op.symbol) t, ?_, ?_, by simp, by simp, ?_⟩
  · refine .leading hleads hgrouping hhead fun other hother => ?_
    obtain ⟨hother', hbinary⟩ := hleft other hother
    exact hgoes op hmem harity hfront other hother' hbinary
      (hall other (List.mem_append_left _ hother))
  · rw [SyntaxTree.unmarked, if_neg (by simp [groupMark]), ht]
    rfl
  · simp only [List.nil_append, List.forall_mem_cons, Nat.le_refl, true_and]
    exact fun other hother => hall other (List.mem_append_right _ hother)

/-- A sign between operands that are strong enough joins them. -/
theorem showsAs_joined {tokens' : List Token} {left right : OperatorTree}
    (hmem : op ∈ Operator.table) (harity : op.arity = .binary)
    (hl : ShowsAs tokens left fun other => op.precedence ≤ other.precedence ∧
      (op.associativity ≠ .left → op.precedence < other.precedence))
    (hr : ShowsAs tokens' right fun other => op.precedence ≤ other.precedence ∧
      (op.associativity ≠ .right → op.precedence < other.precedence)) :
    ShowsAs (tokens ++ .binary op.symbol :: tokens')
      (.binary op (.binary op.symbol) left right)
      fun other => op.precedence ≤ other.precedence := by
  have hright : ∀ op ∈ Operator.table, op.arity = .binary → op.associativity = .right →
      ∀ other ∈ Operator.table, other.arity = .binary → op.precedence ≤ other.precedence →
        op.goesBefore other = false := by
    decide
  have hjoins : (Token.binary op.symbol).Joins op :=
    .binary (Operator.find?_of_arity hmem harity)
  obtain ⟨edge, pending, t, hgrouping, ht, hhead, hedge, hall⟩ := hl
  obtain ⟨edge', pending', t', hgrouping', ht', -, hedge', hall'⟩ := hr
  refine ⟨op :: edge, op :: pending', .binary (.binary op.symbol) t t', ?_, ?_, ?_, ?_, ?_⟩
  · refine .joined hgrouping hjoins hgrouping' (fun other hother => ?_) fun other hother => ?_
    · obtain ⟨hle, hlt⟩ := hall other (List.mem_append_right _ hother)
      by_cases hassoc : op.associativity = .left
      · exact Operator.goesBefore_of_left hassoc hle
      · exact Operator.goesBefore_of_lt (hlt hassoc)
    · obtain ⟨hle, hlt⟩ := hall' other (List.mem_append_left _ hother)
      obtain ⟨hother', hbinary⟩ := hedge' other hother
      by_cases hassoc : op.associativity = .right
      · exact hright op hmem harity hassoc other hother' hbinary hle
      · exact Operator.not_goesBefore_of_lt (hlt hassoc)
  · rw [SyntaxTree.unmarked, ht, ht']
    rfl
  · rw [hgrouping.head?_append]
    exact hhead
  · exact List.forall_mem_cons.mpr ⟨⟨hmem, harity⟩, hedge⟩
  · refine List.forall_mem_append.mpr ⟨?_, ?_⟩
    · exact List.forall_mem_cons.mpr
        ⟨Nat.le_refl _, fun other hother => (hall other (List.mem_append_left _ hother)).1⟩
    · exact List.forall_mem_cons.mpr
        ⟨Nat.le_refl _, fun other hother => (hall' other (List.mem_append_right _ hother)).1⟩

/-- The text of a unary operator binds as the operator does. -/
theorem precedence_unary (op : Operator) (token : Token) (operand : OperatorTree) :
    (unary op token operand).written.precedence = some op.precedence := rfl

/-- What binds less than a square does not yield to one. -/
theorem Keyed.yieldsSquare_shown_of_lt (h : tree.Keyed) {n : Nat}
    (hprecedence : tree.written.precedence = some n) (hn : n < Operator.square.precedence) :
    tree.shown.yieldsSquare = false := by
  cases h with
  | number | argument | constant => rfl
  | binary => rfl
  | @unary op operand hmem =>
    rw [precedence_unary] at hprecedence
    obtain rfl := Option.some.inj hprecedence
    have hfront : op.followsOperand = false := by
      rw [← Bool.not_eq_true]
      intro hfollows
      rw [Operator.eq_square op hmem hfollows] at hn
      exact absurd hn (Nat.lt_irrefl _)
    have hyields : op.yieldsSquare = false := by
      simp [Operator.yieldsSquare, hn.ne]
    rw [OperatorTree.shown, hfront]
    exact hyields

/-- The precedences that operands are written for are at most that of the square. -/
structure TakesOperand (precedence : Nat) (farSide : Bool) : Prop where
  le : precedence ≤ Operator.square.precedence
  lt : farSide = true → precedence < Operator.square.precedence

/-- On the near side operands are written for any precedence up to that of the square. -/
theorem TakesOperand.nearSide {precedence : Nat} (h : precedence ≤ Operator.square.precedence) :
    TakesOperand precedence false :=
  ⟨h, fun hfar => absurd hfar Bool.false_ne_true⟩

/-- What is put in parentheses as an operand binds looser than the square. -/
theorem exists_lt_of_isEnclosed {written : Written} {precedence : Nat} {farSide : Bool}
    (hside : TakesOperand precedence farSide) (h : written.isEnclosed precedence farSide = true) :
    ∃ n, written.precedence = some n ∧ n < Operator.square.precedence := by
  rw [Written.isEnclosed, Written.bindsBelow, Bool.or_eq_true, Bool.and_eq_true,
    decide_eq_true_eq] at h
  rcases h with hbelow | ⟨hfar, hsame⟩
  · cases hprecedence : written.precedence with
    | none =>
      rw [hprecedence] at hbelow
      cases hbelow
    | some n =>
      rw [hprecedence] at hbelow
      exact ⟨n, rfl, lt_of_lt_of_le (by simpa using hbelow) hside.le⟩
  · exact ⟨precedence, hsame, hside.lt hfar⟩

/-- A tree as it shows with a number of squares behind it, which it has to be able
to bear without parentheses. -/
def ShowsWithSquares (tree : OperatorTree) : Prop :=
  ∀ count, (count ≠ 0 → tree.written.isEnclosed Operator.square.precedence false = false) →
    ShowsAs (tree.spelling ++ List.replicate count squareToken) (tree.shown.attachSquares count)
      fun other => ∃ n, tree.written.precedence = some n ∧ n ≤ other.precedence

/-- An operand is a group, or its operators are as strong as they have to be. -/
theorem showsAs_operand (h : operand.Keyed) (hshows : operand.ShowsWithSquares) {precedence : Nat}
    {farSide : Bool} (hside : TakesOperand precedence farSide) (count : Nat)
    (hcount : count ≠ 0 → precedence = Operator.square.precedence ∧ farSide = false) :
    ShowsAs (operandSpelling operand.written precedence farSide operand.spelling ++
        List.replicate count squareToken) (operand.shown.attachSquares count)
      fun other => precedence ≤ other.precedence ∧
        (farSide = true → precedence < other.precedence) := by
  cases henclosed : operand.written.isEnclosed precedence farSide with
  | true =>
    -- Only what binds less than a square is enclosed, so the group keeps its squares.
    obtain ⟨n, hn, hlt⟩ := exists_lt_of_isEnclosed hside henclosed
    obtain ⟨left, right, t, hgrouping, ht, -⟩ := hshows 0 (absurd rfl)
    rw [List.replicate_zero, List.append_nil] at hgrouping
    have hmark : groupMark.Leads .unknownCall := .call (by decide)
    have hgroup := Grouping.applied hmark hgrouping
    rw [operandSpelling, if_pos henclosed]
    refine showsAs_closed hgroup ?_ (by simp [groupMark]) (h.yieldsSquare_shown_of_lt hn hlt) count
    rw [SyntaxTree.unmarked, if_pos rfl, ht]
    rfl
  | false =>
    rw [operandSpelling, if_neg (by simp [henclosed])]
    refine (hshows count fun hne => ?_).mono fun other hother => ?_
    · obtain ⟨rfl, rfl⟩ := hcount hne
      exact henclosed
    · obtain ⟨n, hn, hle⟩ := hother
      obtain ⟨hge, hgt⟩ := Written.le_of_not_isEnclosed henclosed hn
      exact ⟨hge.trans hle, fun hfar => (hgt hfar).trans_le hle⟩

/-- Squares behind a root or a reciprocal are put on its operand, however many they
are. -/
theorem attachSquares_unary (h : op.yieldsSquare = true) (token : Token) (operand : OperatorTree)
    (count : Nat) : (unary op token operand).attachSquares count =
      .unary op token (operand.attachSquares count) := by
  induction count generalizing operand with
  | zero => rfl
  | succ count ih =>
    rw [attachSquares, Function.iterate_succ_apply, attach_of_yieldsSquare h]
    exact ih _

/-- A number or a name shows as itself, with any number of squares behind it. -/
theorem showsWithSquares_leaf {token : Token} (htoken : token.isOperand = true) :
    (OperatorTree.leaf token).ShowsWithSquares := by
  intro count _
  refine showsAs_closed (.leaf htoken) rfl ?_ rfl count
  intro hhead
  cases Option.some.inj hhead
  cases htoken

/-- A call ends with its parenthesis, so that the squares are taken of all of it. -/
theorem showsWithSquares_named (hmem : op ∈ Operator.table) (harity : op.arity = .unary)
    (hnamed : isNamed op.symbol = true) (hshows : operand.ShowsWithSquares) :
    (OperatorTree.unary op (.unary op.symbol) operand).ShowsWithSquares := by
  intro count _
  obtain ⟨hfront, hyields⟩ := Operator.front_of_isNamed hmem hnamed
  obtain ⟨left, right, t, hgrouping, ht, -⟩ := hshows 0 (absurd rfl)
  rw [List.replicate_zero, List.append_nil] at hgrouping
  have hleads : (Token.unary op.symbol).Leads op :=
    .unary (Operator.find?_of_arity hmem harity) hfront
  have hclosed : (OperatorTree.unary op (.unary op.symbol) operand.shown).yieldsSquare = false :=
    hyields
  rw [spelling_unary, if_pos hnamed, OperatorTree.shown, hfront]
  refine showsAs_closed (.applied hleads hgrouping) ?_ (by simp) hclosed count
  rw [SyntaxTree.unmarked, if_neg (by simp [groupMark]), ht]
  rfl

/-- A square joins those behind it. -/
theorem showsWithSquares_square (hoperand : operand.Keyed) (hshows : operand.ShowsWithSquares) :
    (OperatorTree.unary .square squareToken operand).ShowsWithSquares := by
  intro count _
  have hspelling : (OperatorTree.unary .square squareToken operand).spelling =
      operandSpelling operand.written Operator.square.precedence false operand.spelling ++
        [squareToken] :=
    (spelling_unary .square operand).trans
      (if_neg (by simp [Operator.isNamed_eq .square (by decide)]))
  have hshown : (OperatorTree.unary .square squareToken operand).shown =
      operand.shown.attach .square squareToken := rfl
  have hside : TakesOperand Operator.square.precedence false := .nearSide le_rfl
  rw [hspelling, hshown, List.append_assoc, List.singleton_append]
  exact (showsAs_operand hoperand hshows hside (count + 1) fun _ => ⟨rfl, rfl⟩).mono
    fun other hother => ⟨_, rfl, hother.1⟩

/-- Squares behind a sign are taken of its operand if the sign binds as much, and
cannot stand there without parentheses otherwise. -/
theorem showsWithSquares_front (hmem : op ∈ Operator.table) (harity : op.arity = .unary)
    (hnamed : isNamed op.symbol = false) (hfront : op.followsOperand = false)
    (hoperand : operand.Keyed) (hshows : operand.ShowsWithSquares) :
    (OperatorTree.unary op (.unary op.symbol) operand).ShowsWithSquares := by
  intro count hcount
  have hle := Operator.le_square_of_not_isNamed hmem hnamed
  have hsame (hne : count ≠ 0) : op.precedence = Operator.square.precedence :=
    Nat.le_antisymm hle (Written.le_of_not_isEnclosed (hcount hne) rfl).1
  have hattach : (OperatorTree.unary op (.unary op.symbol) operand.shown).attachSquares count =
      .unary op (.unary op.symbol) (operand.shown.attachSquares count) := by
    cases count with
    | zero => rfl
    | succ count =>
      exact attachSquares_unary (by simp [Operator.yieldsSquare, hsame, hfront]) _ _ _
  have hside : TakesOperand op.precedence false := .nearSide hle
  have hread := showsAs_operand hoperand hshows hside count fun hne => ⟨hsame hne, rfl⟩
  rw [spelling_unary, hnamed, hfront, if_neg Bool.false_ne_true, if_neg Bool.false_ne_true,
    List.cons_append, OperatorTree.shown, hfront, if_neg Bool.false_ne_true, hattach]
  exact (showsAs_leading hmem harity hfront (hread.mono fun _ => And.left)).mono
    fun other hother => ⟨_, rfl, hother⟩

/-- What two operands are joined to stands in parentheses in front of a square. -/
theorem showsWithSquares_binary {left right : OperatorTree} (hmem : op ∈ Operator.table)
    (harity : op.arity = .binary) (hl : left.Keyed) (hr : right.Keyed)
    (hleft : left.ShowsWithSquares) (hright : right.ShowsWithSquares) :
    (OperatorTree.binary op (.binary op.symbol) left right).ShowsWithSquares := by
  intro count hcount
  have hlt := Operator.lt_square_of_binary op hmem harity
  have hzero : count = 0 := by
    by_contra hne
    have hge := (Written.le_of_not_isEnclosed (hcount hne) rfl).1
    omega
  subst hzero
  have hside (farSide : Bool) : TakesOperand op.precedence farSide := ⟨hlt.le, fun _ => hlt⟩
  have hreadLeft := showsAs_operand hl hleft (hside (op.associativity ≠ .left)) 0 (absurd rfl)
  have hreadRight := showsAs_operand hr hright (hside (op.associativity ≠ .right)) 0 (absurd rfl)
  rw [List.replicate_zero, List.append_nil] at hreadLeft hreadRight
  rw [List.replicate_zero, List.append_nil, spelling]
  have hjoined := showsAs_joined (Operator.typed_mem op hmem harity) harity
    (hreadLeft.mono fun other hother => ⟨hother.1, fun hne => hother.2 (decide_eq_true hne)⟩)
    (hreadRight.mono fun other hother => ⟨hother.1, fun hne => hother.2 (decide_eq_true hne)⟩)
  exact hjoined.mono fun other hother => ⟨_, rfl, hother⟩

/-- The tokens of a keyed tree are grouped as the tree that its text shows. -/
theorem Keyed.showsWithSquares (h : tree.Keyed) : tree.ShowsWithSquares := by
  induction h with
  | number | argument | constant => exact showsWithSquares_leaf rfl
  | @unary op operand hmem harity hoperand ih =>
    cases hnamed : isNamed op.symbol with
    | true => exact showsWithSquares_named hmem harity hnamed ih
    | false =>
      cases hfront : op.followsOperand with
      | true =>
        obtain rfl := Operator.eq_square op hmem hfront
        exact showsWithSquares_square hoperand ih
      | false => exact showsWithSquares_front hmem harity hnamed hfront hoperand ih
  | binary hmem harity hl hr ihl ihr => exact showsWithSquares_binary hmem harity hl hr ihl ihr

/-- Keyed trees have the same text exactly if their texts show the same tree. -/
theorem Keyed.text_eq_iff {tree' : OperatorTree} (h : tree.Keyed) (h' : tree'.Keyed) :
    tree.written.text = tree'.written.text ↔ tree.shown = tree'.shown := by
  constructor
  · intro htext
    obtain ⟨left, right, t, hgrouping, ht, -⟩ := h.showsWithSquares 0 (absurd rfl)
    obtain ⟨left', right', t', hgrouping', ht', -⟩ := h'.showsWithSquares 0 (absurd rfl)
    rw [h.spelling_eq h' htext] at hgrouping
    obtain rfl := IsTreeOf.unique ⟨left, right, hgrouping⟩ ⟨left', right', hgrouping'⟩
    have hshown : tree.shown.syntaxTree = tree'.shown.syntaxTree := ht.symm.trans ht'
    exact h.shown.sound.postorder_inj h'.shown.sound (congrArg SyntaxTree.postorder hshown)
  · intro hshown
    rw [← h.written_shown, ← h'.written_shown, hshown]

end OperatorTree

namespace Postfix

variable {terms terms' : List String} {ts ts' : List Token} {expression expression' : Postfix}
  {tree tree' : OperatorTree}

/-- The texts of two keypad expressions that are trees are the same exactly if they
show the same tree. If no square is taken of a root or a reciprocal in them, then
expressions with the same text evaluate alike. -/
theorem toText_eq_iff_shown (hterms : Keypad.tokens terms = .ok ts)
    (hread : ofTokens ts = .ok expression) (htree : expression.tree? = some tree)
    (hterms' : Keypad.tokens terms' = .ok ts') (hread' : ofTokens ts' = .ok expression')
    (htree' : expression'.tree? = some tree') :
    (expression.toText = expression'.toText ↔ tree.shown = tree'.shown) ∧
      (tree.keepsSquares = true → tree'.keepsSquares = true →
        expression.toText = expression'.toText →
          ∀ bindings, expression.evaluate bindings = expression'.evaluate bindings) := by
  have hkeyed := Keypad.keyed_of_tokens hterms hread htree
  have hkeyed' := Keypad.keyed_of_tokens hterms' hread' htree'
  have htext : expression.toText = expression'.toText ↔ tree.shown = tree'.shown := by
    rw [toText, toText, htree, htree']
    exact hkeyed.text_eq_iff hkeyed'
  refine ⟨htext, fun hkeeps hkeeps' hsame bindings => ?_⟩
  obtain ⟨-, rfl⟩ := OperatorTree.eq_postorder_of_tree? htree
  obtain ⟨-, rfl⟩ := OperatorTree.eq_postorder_of_tree? htree'
  rw [hkeyed.sound.evaluate_postorder hkeyed.isEvaluable,
    hkeyed'.sound.evaluate_postorder hkeyed'.isEvaluable, ← hkeyed.valueIn_shown hkeeps,
    ← hkeyed'.valueIn_shown hkeeps', htext.mp hsame]

/-- The square of a product with the sign of the keypad. -/
def glyphSquare : Postfix := ⟨[.constant "π", .argument "x", .binary "×", .unary "x²"]⟩

/-- The square of a product with the sign that is typed. -/
def typedSquare : Postfix := ⟨[.constant "π", .argument "x", .binary "*", .unary "x²"]⟩

/-- A product with the sign of the keypad and one with the sign that is typed have the
same text, the same tree that it shows, and the same values. -/
theorem toText_eq_iff_shown_glyphSquare :
    (Keypad.tokens ["(", "π", "×", "x", ")", "x²"] >>= ofTokens) = .ok glyphSquare ∧
      (Keypad.tokens ["(", "(", "π", "*", "x", ")", ")", "x²"] >>= ofTokens) = .ok typedSquare ∧
      glyphSquare.toText = "(π * x)x²" ∧ typedSquare.toText = "(π * x)x²" ∧
      ∀ bindings, glyphSquare.evaluate bindings = typedSquare.evaluate bindings := by
  have hglyph : glyphSquare.toText = "(π * x)x²" := by
    decide +kernel
  have htyped : typedSquare.toText = "(π * x)x²" := by
    decide +kernel
  obtain ⟨-, hvalue⟩ := @toText_eq_iff_shown ["(", "π", "×", "x", ")", "x²"]
    ["(", "(", "π", "*", "x", ")", ")", "x²"] _ _ glyphSquare typedSquare _ _
    rfl rfl rfl rfl rfl rfl
  exact ⟨rfl, rfl, hglyph, htyped, hvalue rfl rfl (hglyph.trans htyped.symm)⟩

/-- The square of a root and the root of a square have the same text. -/
example : (⟨[.number 2, .unary "√", .unary "x²"]⟩ : Postfix).toText = "√2x²" ∧
    (⟨[.number 2, .unary "x²", .unary "√"]⟩ : Postfix).toText = "√2x²" := by
  decide +kernel

end Postfix

end FormulaCalculator
