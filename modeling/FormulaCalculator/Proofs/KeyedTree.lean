import FormulaCalculator.Proofs.KeypadErrors
import FormulaCalculator.Proofs.NumberRoundTrip
import FormulaCalculator.Proofs.TreeEvaluation
import FormulaCalculator.Proofs.TreeOrder

/-!
# The trees of keypad expressions

The keys make trees of numbers without a sign, the variable, constants, and
operators of the table. A tree is not always the one that its text shows. The signs
that only a keypad has are written as those that are typed. And a square is written
directly behind a root or a reciprocal that it is taken of, where it shows as the
square of the operand.

The tree that a text shows has the same text. It has the same value too, unless a
square is taken of a root or a reciprocal.
-/

set_option autoImplicit false

namespace FormulaCalculator

namespace Operator

/-- The operator that is typed for an operator of the keypad. -/
def typed (op : Operator) : Operator := { op with symbol := OperatorTree.typedSign op.symbol }

/-- The square, the one operator that is written behind its operand. -/
def square : Operator := ⟨"x²", 6, .left, .unary⟩

/-- Whether an operator is written in front of an operand and binds as much as the
square behind it. -/
def yieldsSquare (op : Operator) : Bool :=
  op.precedence = square.precedence && !op.followsOperand

variable {op : Operator}

/-- An operator of the table is found by its symbol and its arity. -/
theorem find?_of_arity {arity : Arity} (hmem : op ∈ table) (harity : op.arity = arity) :
    find? op.symbol arity = some op :=
  harity ▸ find?_of_mem op hmem

/-- What is typed for a binary operator of the keypad is in the table as well. -/
theorem typed_mem : ∀ op ∈ table, op.arity = .binary → op.typed ∈ table := by
  decide

/-- The square is the only operator of the table behind its operand. -/
theorem eq_square : ∀ op ∈ table, op.followsOperand = true → op = square := by
  decide

/-- Signs of unary operators are typed as they are keyed. -/
theorem typedSign_of_unary :
    ∀ op ∈ table, op.arity = .unary → OperatorTree.typedSign op.symbol = op.symbol := by
  decide

/-- A sign that can be typed is typed as it is. -/
theorem typedSign_typedSign : ∀ op ∈ table,
    OperatorTree.typedSign (OperatorTree.typedSign op.symbol) =
      OperatorTree.typedSign op.symbol := by
  decide

/-- The functions are the operators that bind more than a square, and they alone
have names. -/
theorem isNamed_eq : ∀ op ∈ table,
    OperatorTree.isNamed op.symbol = decide (square.precedence < op.precedence) := by
  decide +kernel

/-- A sign that only a keypad has computes what the typed one does. -/
theorem applyBinary?_typedSign (symbol : String) (l r : Float) :
    applyBinary? (OperatorTree.typedSign symbol) l r = applyBinary? symbol l r := by
  unfold OperatorTree.typedSign
  split <;> rfl

end Operator

namespace OperatorTree

/-- The tree of an expression that is keyed in. -/
inductive Keyed : OperatorTree → Prop where
  | number {value : Float} : Number.isSigned value = false → Keyed (.leaf (.number value))
  | argument : Keyed (.leaf (.argument argumentName))
  | constant {name : String} : name ∈ Keypad.constantNames → Keyed (.leaf (.constant name))
  | unary {op : Operator} {operand : OperatorTree} : op ∈ Operator.table → op.arity = .unary →
      Keyed operand → Keyed (.unary op (.unary op.symbol) operand)
  | binary {op : Operator} {left right : OperatorTree} : op ∈ Operator.table →
      op.arity = .binary → Keyed left → Keyed right →
      Keyed (.binary op (.binary op.symbol) left right)

/-- Whether the outermost operator yields to a square behind it. -/
def yieldsSquare : OperatorTree → Bool
  | .unary op _ _ => op.yieldsSquare
  | _ => false

/-- Puts an operator behind the operand that a text ends with. -/
def attach (op : Operator) (token : Token) : OperatorTree → OperatorTree
  | .unary op' token' operand =>
    if op'.yieldsSquare then .unary op' token' (operand.attach op token)
    else .unary op token (.unary op' token' operand)
  | tree => .unary op token tree

/-- The tree that the text of a tree shows. -/
def shown : OperatorTree → OperatorTree
  | .leaf token => .leaf token
  | .unary op token operand =>
    if op.followsOperand then operand.shown.attach op token else .unary op token operand.shown
  | .binary op token left right =>
    .binary op.typed (.binary (typedSign token.symbol)) left.shown right.shown

/-- Whether no square is taken of a root or a reciprocal. -/
def keepsSquares : OperatorTree → Bool
  | .leaf _ => true
  | .unary op _ operand => !(op.followsOperand && operand.yieldsSquare) && operand.keepsSquares
  | .binary _ _ left right => left.keepsSquares && right.keepsSquares

variable {tree operand : OperatorTree} {op : Operator} {token : Token} {bindings : Bindings}

/-- A square behind an operand that does not yield to it is put around the whole. -/
theorem attach_of_not_yieldsSquare (h : tree.yieldsSquare = false) :
    tree.attach op token = .unary op token tree := by
  cases tree with
  | leaf _ | binary _ _ _ _ => rfl
  | unary op' token' operand =>
    rw [attach, if_neg]
    exact Bool.eq_false_iff.mp h

/-- A square behind a root or a reciprocal is put on the operand of that. -/
theorem attach_of_yieldsSquare {op' : Operator} {token' : Token} (h : op'.yieldsSquare = true) :
    (unary op' token' operand).attach op token = .unary op' token' (operand.attach op token) :=
  if_pos h

/-- Whether a tree yields to a square can be seen from its text, if no square is taken of
a root or a reciprocal in it. -/
theorem yieldsSquare_shown (h : tree.keepsSquares = true) :
    tree.shown.yieldsSquare = tree.yieldsSquare := by
  induction tree with
  | leaf _ | binary _ _ _ _ _ _ => rfl
  | unary op token operand ih =>
    simp only [keepsSquares, Bool.and_eq_true, Bool.not_eq_true', Bool.and_eq_false_imp] at h
    rw [shown]
    split
    · next hfollows =>
      have hoperand : operand.shown.yieldsSquare = false := (ih h.2).trans (h.1 hfollows)
      rw [attach_of_not_yieldsSquare hoperand]
      rfl
    · rfl

/-- A keyed tree with no square of a root or a reciprocal has the value of the tree
that its text shows. -/
theorem Keyed.valueIn_shown (htree : tree.Keyed) (h : tree.keepsSquares = true) :
    tree.shown.valueIn bindings = tree.valueIn bindings := by
  induction htree with
  | number | argument | constant => rfl
  | @unary op operand _ _ _ ih =>
    simp only [keepsSquares, Bool.and_eq_true, Bool.not_eq_true', Bool.and_eq_false_imp] at h
    have hshown : (OperatorTree.unary op (.unary op.symbol) operand).shown =
        .unary op (.unary op.symbol) operand.shown := by
      rw [OperatorTree.shown]
      split
      · next hfollows =>
        exact attach_of_not_yieldsSquare ((yieldsSquare_shown h.2).trans (h.1 hfollows))
      · rfl
    rw [hshown, valueIn, valueIn, ih h.2]
  | @binary op left right hmem harity _ _ ihl ihr =>
    rw [keepsSquares, Bool.and_eq_true] at h
    have hfind := Operator.find?_of_arity hmem harity
    rw [OperatorTree.shown, valueIn, valueIn, ihl h.1, ihr h.2]
    simp only [Token.symbol, Operator.applyBinary?_typedSign]
    cases left.valueIn bindings with
    | error e => rfl
    | ok l =>
      cases right.valueIn bindings with
      | error e => rfl
      | ok r =>
        obtain ⟨value, hvalue⟩ := Operator.exists_applyBinary? hfind l r
        simp only [ok_bind, hvalue]

/-- A keyed expression with a square put at its end is one that can be keyed. -/
theorem Keyed.attach (h : tree.Keyed) : (tree.attach .square (.unary "x²")).Keyed := by
  induction h with
  | number hvalue => exact .unary (by decide) rfl (.number hvalue)
  | argument => exact .unary (by decide) rfl .argument
  | constant hname => exact .unary (by decide) rfl (.constant hname)
  | unary hmem harity hoperand ih =>
    rw [OperatorTree.attach]
    split
    · exact .unary hmem harity ih
    · exact .unary (by decide) rfl (.unary hmem harity hoperand)
  | binary hmem harity hl hr =>
    exact .unary (by decide) rfl (.binary hmem harity hl hr)

/-- What the text of a keyed expression shows can be keyed as well. -/
theorem Keyed.shown (h : tree.Keyed) : tree.shown.Keyed := by
  induction h with
  | number hvalue => exact .number hvalue
  | argument => exact .argument
  | constant hname => exact .constant hname
  | unary hmem harity _ ih =>
    rw [OperatorTree.shown]
    split
    · next hfollows =>
      obtain rfl := Operator.eq_square _ hmem hfollows
      exact ih.attach
    · exact .unary hmem harity ih
  | binary hmem harity _ _ ihl ihr =>
    exact .binary (Operator.typed_mem _ hmem harity) harity ihl ihr

/-- An operator in front and the square behind are written alike, whichever of them
is taken first. -/
theorem writeUnary_square_comm (hmem : op ∈ Operator.table) (hyields : op.yieldsSquare = true)
    (operand : Written) :
    writeUnary op op.symbol (writeUnary .square "x²" operand) =
      writeUnary .square "x²" (writeUnary op op.symbol operand) := by
  obtain ⟨hprecedence, hfront⟩ : op.precedence = Operator.square.precedence ∧
      op.followsOperand = false := by
    simpa [Operator.yieldsSquare] using hyields
  have hnamed : isNamed op.symbol = false := by
    rw [Operator.isNamed_eq op hmem, hprecedence]
    rfl
  have hsquare : isNamed "x²" = false := Operator.isNamed_eq .square (by decide)
  have hbare (text : String) : (⟨text, some Operator.square.precedence⟩ : Written).asOperand
      Operator.square.precedence false = text := by
    simp [Written.asOperand, Written.bindsBelow]
  have hbehind : Operator.square.followsOperand = true := rfl
  simp only [writeUnary, hnamed, hsquare, hprecedence, hfront, hbehind, hbare, Bool.false_eq_true,
    if_true, if_false, String.append_assoc]

/-- Putting a square at the end of the text of a tree is attaching it to the tree. -/
theorem Keyed.written_attach (h : tree.Keyed) :
    (tree.attach .square (.unary "x²")).written = writeUnary .square "x²" tree.written := by
  induction h with
  | number | argument | constant | binary => rfl
  | @unary op operand hmem harity _ ih =>
    rw [OperatorTree.attach]
    split
    · next hyields =>
      rw [written, written, ih, Token.symbol, Operator.typedSign_of_unary op hmem harity]
      exact writeUnary_square_comm hmem hyields _
    · rfl

/-- The tree that a text shows has the text. -/
theorem Keyed.written_shown (h : tree.Keyed) : tree.shown.written = tree.written := by
  induction h with
  | number | argument | constant => rfl
  | @unary op operand hmem harity hoperand ih =>
    rw [OperatorTree.shown]
    split
    · next hfollows =>
      obtain rfl := Operator.eq_square op hmem hfollows
      rw [show Operator.square.symbol = "x²" from rfl, hoperand.shown.written_attach, ih]
      rfl
    · rw [written, written, ih]
  | @binary op left right hmem harity _ _ ihl ihr =>
    have htyped : typedSign (typedSign op.symbol) = typedSign op.symbol :=
      Operator.typedSign_typedSign op hmem
    rw [OperatorTree.shown, written, written, ihl, ihr, Token.symbol, Token.symbol, htyped]
    rfl

/-- In a keyed expression every operator is the one of its token. -/
theorem Keyed.sound (h : tree.Keyed) : tree.Sound := by
  induction h with
  | number | argument | constant => exact .leaf rfl
  | unary hmem harity _ ih => exact .unary (Operator.find?_of_arity hmem harity) harity ih
  | binary hmem harity _ _ ihl ihr =>
    exact .binary (Operator.find?_of_arity hmem harity) harity ihl ihr

/-- A keyed expression has no token that could not be evaluated. -/
theorem Keyed.isEvaluable (h : tree.Keyed) :
    ∀ token ∈ tree.postorder, token.isEvaluable = true := by
  induction h with
  | number | argument | constant => simp [Token.isEvaluable]
  | unary hmem harity _ ih =>
    rw [postorder_unary]
    refine List.forall_mem_append.mpr ⟨ih, List.forall_mem_singleton.mpr ?_⟩
    exact Option.isSome_iff_exists.mpr ⟨_, Operator.find?_of_arity hmem harity⟩
  | binary hmem harity _ _ ihl ihr =>
    rw [postorder_binary]
    refine List.forall_mem_append.mpr ⟨List.forall_mem_append.mpr ⟨ihl, ihr⟩, ?_⟩
    refine List.forall_mem_singleton.mpr ?_
    exact Option.isSome_iff_exists.mpr ⟨_, Operator.find?_of_arity hmem harity⟩

/-- A tree of tokens that keys make is a keyed tree. -/
theorem Sound.keyed (h : tree.Sound)
    (hmakes : ∀ token ∈ tree.postorder, Keypad.Makes token ∧ token.isParenthesis = false)
    (hnumber : ∀ value, .number value ∈ tree.postorder → Number.isSigned value = false) :
    tree.Keyed := by
  induction h with
  | @leaf token hop =>
    obtain ⟨htoken, hparenthesis⟩ := hmakes token (List.mem_singleton_self token)
    cases htoken with
    | number => exact .number (hnumber _ (List.mem_singleton_self _))
    | argument => exact .argument
    | constant hname => exact .constant hname
    | unary hfind | binary hfind =>
      rw [Token.operator?, hfind] at hop
      cases hop
    | opening | closing => cases hparenthesis
  | @unary op token operand hop harity _ ih =>
    rw [postorder_unary] at hmakes hnumber
    have hoperand := ih (fun other hother => hmakes other (by simp [hother]))
      (fun value hvalue => hnumber value (by simp [hvalue]))
    obtain ⟨symbol, rfl | rfl⟩ := Token.exists_of_operator?_unary hop harity
    · obtain ⟨hmem, rfl, -⟩ := Operator.mem_of_find? hop
      exact .unary hmem harity hoperand
    · have hmade := (hmakes (.call symbol) (by simp)).1
      cases hmade
  | @binary op token left right hop harity _ _ ihl ihr =>
    rw [postorder_binary] at hmakes hnumber
    have hleft := ihl (fun other hother => hmakes other (by simp [hother]))
      (fun value hvalue => hnumber value (by simp [hvalue]))
    have hright := ihr (fun other hother => hmakes other (by simp [hother]))
      (fun value hvalue => hnumber value (by simp [hvalue]))
    obtain ⟨symbol, rfl, hfind⟩ := Token.exists_of_operator?_binary hop harity
    obtain ⟨hmem, rfl, -⟩ := Operator.mem_of_find? hfind
    exact .binary hmem harity hleft hright

end OperatorTree

namespace Keypad

variable {run : String} {terms : List String} {previous : Option Token} {ts : List Token}

/-- No symbol makes a number. -/
theorem ofSymbol?_ne_number {symbol : String} {value : Float} :
    Token.ofSymbol? symbol previous ≠ some (.number value) := by
  unfold Token.ofSymbol?
  split
  · split <;> simp
  all_goals simp

/-- No single term that is not numeric makes a number. -/
theorem tokenOf_ne_number {term : String} {value : Float} :
    tokenOf term previous ≠ .ok (.number value) := by
  unfold tokenOf
  split_ifs
  any_goals simp
  cases hsymbol : Token.ofSymbol? term previous with
  | none => simp
  | some token =>
    intro h
    cases h
    exact ofSymbol?_ne_number hsymbol

/-- A number that is keyed in has no sign of its own. -/
theorem isSigned_of_pendingNumber (hrun : run.toList.all Text.isNumeric = true)
    (h : pendingNumber run = .ok ts) :
    ∀ value, .number value ∈ ts → Number.isSigned value = false := by
  unfold pendingNumber numberOf at h
  split at h
  · cases h
    simp
  · split at h
    · cases h
    · split at h
      · next value hparse =>
        cases h
        rw [← String.ofList_toList (s := run)] at hparse
        simpa using Number.isSigned_of_all_isNumeric hrun hparse
      · cases h

/-- No number among the tokens of the keys has a sign: a minus is always an operator. -/
theorem isSigned_of_tokensAfter (hrun : run.toList.all Text.isNumeric = true)
    (h : tokensAfter previous run terms = .ok ts) :
    ∀ value, .number value ∈ ts → Number.isSigned value = false := by
  induction terms generalizing previous run ts with
  | nil => exact isSigned_of_pendingNumber hrun h
  | cons term terms ih =>
    rw [tokensAfter] at h
    split at h
    · next hterm =>
      refine ih ?_ h
      rw [isNumeric, Bool.and_eq_true] at hterm
      rw [String.toList_append, List.all_append, hrun, hterm.2]
      rfl
    · simp only [bind_eq_ok_iff] at h
      obtain ⟨number, hnumber, token, htoken, rest, hrest, heq⟩ := h
      cases heq
      intro value hvalue
      rcases List.mem_append.mp hvalue with hvalue | hvalue
      · exact isSigned_of_pendingNumber hrun hnumber value hvalue
      · rcases List.mem_cons.mp hvalue with rfl | hvalue
        · exact absurd htoken tokenOf_ne_number
        · exact ih rfl hrest value hvalue

/-- The numbers that keys make have no sign. -/
theorem isSigned_of_tokens (h : tokens terms = .ok ts) :
    ∀ value, .number value ∈ ts → Number.isSigned value = false :=
  isSigned_of_tokensAfter rfl h

/-- A tree that the keys give is a keyed tree. -/
theorem keyed_of_tokens {expression : Postfix} {tree : OperatorTree}
    (hterms : tokens terms = .ok ts) (hread : Postfix.ofTokens ts = .ok expression)
    (htree : expression.tree? = some tree) :
    tree.Keyed := by
  obtain ⟨hsound, rfl⟩ := OperatorTree.eq_postorder_of_tree? htree
  obtain ⟨-, expression, hexpression, hperm⟩ :=
    (Postfix.ofTokens_cases (isKnown_of_tokens hterms)).resolve_right fun hnot => by
      rw [hread] at hnot
      cases hnot.2
  obtain rfl : _ = expression := Except.ok.inj (hread.symm.trans hexpression)
  have hmem {token : Token} (htoken : token ∈ tree.postorder) :
      token ∈ ts ∧ token.isParenthesis = false := by
    simpa [Postfix.withoutParentheses] using hperm.mem_iff.mp htoken
  exact hsound.keyed
    (fun token htoken => ⟨makes_of_tokens hterms token (hmem htoken).1, (hmem htoken).2⟩)
    fun value hvalue => isSigned_of_tokens hterms value (hmem hvalue).1

end Keypad

end FormulaCalculator
