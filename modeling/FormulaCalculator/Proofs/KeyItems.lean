import FormulaCalculator.Proofs.KeypadErrors
import FormulaCalculator.Proofs.NumberLiteral
import Mathlib.Data.List.SplitBy

/-!
# The items that the keys make

The keys give one term each. The terms fall into groups: as many numeric terms as
follow each other, or one other term. What a group spells is an item, and every item
makes one token or is a fault; only for a minus does the token before matter.

So the tokens of the keys are known from the items alone. They are there exactly if
every item makes a token, and otherwise the leftmost item that makes none is reported.
How a number is spread over its keys plays no part.
-/

set_option autoImplicit false

namespace FormulaCalculator

open Token

namespace Keypad

variable {run term item : String} {terms rest : List String} {previous : Option Token}
  {token : Token}

/-- The item that a run of numeric terms makes; none if no such term stands there. -/
def pendingItem (run : String) : List String := if run.isEmpty then [] else [run]

/-- The items that terms make after a run of numeric terms. -/
def itemsAfter (run : String) : List String → List String
  | [] => pendingItem run
  | term :: terms =>
    if isNumeric term then itemsAfter (run ++ term) terms
    else pendingItem run ++ term :: itemsAfter "" terms

/-- The items that terms make: numeric terms that follow each other are one item,
and every other term is one by itself. -/
def items (terms : List String) : List String := itemsAfter "" terms

/-- The token of an item, after the token before it. -/
def tokenOfItem (item : String) (previous : Option Token) : Except CalculationError Token :=
  if isNumeric item then numberOf item else tokenOf item previous

/-- The tokens of items, after the token before them. -/
def tokensOfItems (previous : Option Token) : List String → Except CalculationError (List Token)
  | [] => .ok []
  | item :: items => do
    let token ← tokenOfItem item previous
    return token :: (← tokensOfItems (some token) items)

/-- A run of numeric terms makes its number first, if it is not empty, and the other items
follow. -/
theorem tokensOfItems_pendingItem (hrun : run.toList.all Text.isNumeric = true) :
    tokensOfItems previous (pendingItem run ++ rest) = do
      let number ← pendingNumber run
      return number ++ (← tokensOfItems (number.getLast?.or previous) rest) := by
  rw [pendingItem, pendingNumber]
  cases hempty : run.isEmpty with
  | true =>
    simp only [if_true, List.nil_append, ok_bind, List.getLast?_nil, Option.none_or]
    cases tokensOfItems previous rest <;> rfl
  | false =>
    have hnumeric : isNumeric run = true := by rw [isNumeric, hempty, hrun]; rfl
    simp only [Bool.false_eq_true, if_false, List.singleton_append, tokensOfItems, tokenOfItem,
      hnumeric, if_true]
    cases numberOf run <;> rfl

/-- The tokens of terms are those of the items that they make. -/
theorem tokensAfter_eq (hrun : run.toList.all Text.isNumeric = true) :
    tokensAfter previous run terms = tokensOfItems previous (itemsAfter run terms) := by
  induction terms generalizing previous run with
  | nil =>
    rw [tokensAfter, itemsAfter, ← List.append_nil (pendingItem run),
      tokensOfItems_pendingItem hrun]
    cases pendingNumber run <;> simp [tokensOfItems]
  | cons term terms ih =>
    rw [tokensAfter, itemsAfter]
    cases hnumeric : isNumeric term with
    | true =>
      rw [if_pos rfl, if_pos rfl]
      refine ih ?_
      rw [isNumeric, Bool.and_eq_true] at hnumeric
      rw [String.toList_append, List.all_append, hrun, hnumeric.2]
      rfl
    | false =>
      -- On both sides the number is read before the term that ends it, so a fault of
      -- the number comes first.
      rw [if_neg Bool.false_ne_true, if_neg Bool.false_ne_true, tokensOfItems_pendingItem hrun]
      refine congrArg (pendingNumber run >>= ·) (funext fun number => ?_)
      have hrest (token : Token) :
          tokensAfter (some token) "" terms = tokensOfItems (some token) (itemsAfter "" terms) :=
        ih rfl
      simp only [tokensOfItems, tokenOfItem, hnumeric, Bool.false_eq_true, if_false, hrest]
      cases tokenOf term (number.getLast?.or previous) with
      | error _ => rfl
      | ok token =>
        rw [ok_bind, ok_bind]
        cases tokensOfItems (some token) (itemsAfter "" terms) <;> rfl

/-- The tokens of the terms are those of their items: numeric terms that follow each other
are put together first. -/
theorem tokens_eq_tokensOfItems (terms : List String) :
    tokens terms = tokensOfItems none (items terms) :=
  tokensAfter_eq rfl

/-! ## Groups of terms -/

/-- The terms in groups: as many numeric terms as follow each other, or one other
term. -/
def groups (terms : List String) : List (List String) :=
  terms.splitBy fun term next => isNumeric term && isNumeric next

/-- Numeric terms that follow each other are one group. -/
theorem groups_numeric {numeric : List String} (hne : numeric ≠ [])
    (hnumeric : ∀ term ∈ numeric, isNumeric term = true) : groups numeric = [numeric] := by
  refine List.splitBy_of_isChain hne (List.Pairwise.isChain ?_)
  refine List.pairwise_of_forall_mem_list fun term hterm next hnext => ?_
  rw [hnumeric term hterm, hnumeric next hnext]
  rfl

/-- A term that is not numeric ends the group before it and is one by itself. -/
theorem groups_append_other (numeric : List String) (hterm : isNumeric term = false)
    (terms : List String) :
    groups (numeric ++ term :: terms) = groups numeric ++ [term] :: groups terms := by
  have hsingle : groups (term :: terms) = groups [term] ++ groups terms := by
    unfold groups
    exact @List.splitBy_append _ _ [term] terms (by simp [hterm])
  rw [groups, List.splitBy_append_cons terms (by simp [hterm]), ← groups, ← groups, hsingle]
  rfl

/-- Reading on from numeric terms gives the items of all terms together. -/
theorem itemsAfter_join {numeric : List String} (hnumeric : ∀ term ∈ numeric, isNumeric term = true)
    (terms : List String) :
    itemsAfter (String.join numeric) terms = (groups (numeric ++ terms)).map String.join := by
  have hpending {numeric : List String} (hnumeric : ∀ term ∈ numeric, isNumeric term = true) :
      pendingItem (String.join numeric) = (groups numeric).map String.join := by
    cases numeric with
    | nil => rfl
    | cons first more =>
      have hfirst : first ≠ "" := by
        rintro rfl
        exact absurd (hnumeric "" List.mem_cons_self) (by decide)
      have hempty : (String.join (first :: more)).isEmpty = false := by
        simp [hfirst]
      rw [pendingItem, hempty, groups_numeric (List.cons_ne_nil first more) hnumeric]
      rfl
  induction terms generalizing numeric with
  | nil => rw [itemsAfter, List.append_nil, hpending hnumeric]
  | cons term terms ih =>
    rw [itemsAfter]
    cases hterm : isNumeric term with
    | true =>
      have hmore : ∀ other ∈ numeric ++ [term], isNumeric other = true :=
        List.forall_mem_append.mpr ⟨hnumeric, List.forall_mem_singleton.mpr hterm⟩
      have hjoin : String.join numeric ++ term = String.join (numeric ++ [term]) := by
        simp
      rw [if_pos rfl, hjoin, ih hmore, List.append_assoc, List.singleton_append]
    | false =>
      have hrest : itemsAfter "" terms = (groups terms).map String.join :=
        @ih [] (by simp)
      have hterm' : String.join [term] = term := by simp
      rw [if_neg Bool.false_ne_true, hpending hnumeric, hrest, groups_append_other numeric hterm,
        List.map_append, List.map_cons, hterm']

/-- The items are what the groups of terms spell. -/
theorem items_eq (terms : List String) : items terms = (groups terms).map String.join :=
  @itemsAfter_join [] (by simp) terms

/-- Terms that spell the same digits and points may stand for each other. -/
theorem items_congr {numeric numeric' : List String}
    (hnumeric : ∀ term ∈ numeric, isNumeric term = true)
    (hnumeric' : ∀ term ∈ numeric', isNumeric term = true)
    (hjoin : String.join numeric = String.join numeric') (front back : List String) :
    items (front ++ numeric ++ back) = items (front ++ numeric' ++ back) := by
  have hgather {numeric : List String} (hnumeric : ∀ term ∈ numeric, isNumeric term = true)
      (run : String) : itemsAfter run (numeric ++ back) =
        itemsAfter (run ++ String.join numeric) back := by
    induction numeric generalizing run with
    | nil => simp
    | cons term numeric ih =>
      obtain ⟨hterm, hnumeric⟩ := List.forall_mem_cons.mp hnumeric
      rw [List.cons_append, itemsAfter, if_pos hterm, ih hnumeric, String.join_cons,
        String.append_assoc]
  have hfront (run : String) : itemsAfter run (front ++ (numeric ++ back)) =
      itemsAfter run (front ++ (numeric' ++ back)) := by
    induction front generalizing run with
    | nil => rw [List.nil_append, List.nil_append, hgather hnumeric, hgather hnumeric', hjoin]
    | cons term front ih => simp only [List.cons_append, itemsAfter, ih]
  rw [items, items, List.append_assoc, List.append_assoc, hfront]

/-! ## The token of an item -/

/-- The item makes a token: it is digits with no more than one point, a parenthesis,
the variable, a constant, or the symbol of an operator. -/
def Fits (item : String) : Prop :=
  if isNumeric item then item.toList.any Char.isDigit = true ∧ item.toList.count '.' ≤ 1
  else item = "(" ∨ item = ")" ∨ item = argumentName ∨ item ∈ constantNames ∨
    ∃ op ∈ Operator.table, op.symbol = item
deriving Decidable

/-- What is said of an item that makes no token. -/
def faultOf (item : String) : CalculationError :=
  if isNumeric item ∧ 1 < item.toList.count '.' then .severalPoints item else .badToken item

/-- An operand has to follow: nothing stands before, or a parenthesis that was
opened, or an operator that is not written behind its operand. -/
inductive OperandFollows : Option Token → Prop where
  | start : OperandFollows none
  | opening : OperandFollows (some .opening)
  | binary {symbol : String} : OperandFollows (some (.binary symbol))
  | unary {op : Operator} : op ∈ Operator.table → op.arity = .unary → op.associativity = .right →
      OperandFollows (some (.unary op.symbol))

/-- The token that an item makes. A minus is unary where an operand has to follow;
every other symbol has one arity. -/
inductive Becomes (previous : Option Token) : String → Token → Prop where
  | number {item : String} {value : Float} : isNumeric item = true →
      Number.parse item = .ok value → Becomes previous item (.number value)
  | opening : Becomes previous "(" .opening
  | closing : Becomes previous ")" .closing
  | argument : Becomes previous argumentName (.argument argumentName)
  | constant {name : String} : name ∈ constantNames → Becomes previous name (.constant name)
  | unary {op : Operator} : op ∈ Operator.table → op.arity = .unary → op.symbol ≠ "-" →
      Becomes previous op.symbol (.unary op.symbol)
  | binary {op : Operator} : op ∈ Operator.table → op.arity = .binary → op.symbol ≠ "-" →
      Becomes previous op.symbol (.binary op.symbol)
  | negation : OperandFollows previous → Becomes previous "-" (.unary "-")
  | subtraction : ¬OperandFollows previous → Becomes previous "-" (.binary "-")

/-- The tokens that items make, one for each, after the token before them. -/
inductive BecomeAll : Option Token → List String → List Token → Prop where
  | nil {previous : Option Token} : BecomeAll previous [] []
  | cons {previous : Option Token} {item : String} {token : Token} {items : List String}
      {tokens : List Token} : Becomes previous item token → BecomeAll (some token) items tokens →
      BecomeAll previous (item :: items) (token :: tokens)

/-- Behind a binary operator an operand is still to come. -/
theorem closesOperand_binary (symbol : String) : (Token.binary symbol).closesOperand = false := by
  cases hfind : Operator.find? symbol .binary with
  | none => simp [closesOperand, endsOperand, followsOperand, operator?, hfind]
  | some op =>
    obtain ⟨-, -, harity⟩ := Operator.mem_of_find? hfind
    simp [closesOperand, endsOperand, followsOperand, operator?, hfind, Operator.followsOperand,
      harity]

/-- A unary operator ends an operand if it is one that stands behind it, which are those
that are left associative. -/
theorem closesOperand_unary {op : Operator} (hmem : op ∈ Operator.table)
    (harity : op.arity = .unary) :
    (Token.unary op.symbol).closesOperand = decide (op.associativity = .left) := by
  have hfind := Operator.find?_of_mem op hmem
  rw [harity] at hfind
  simp [closesOperand, endsOperand, followsOperand, operator?, hfind, Operator.followsOperand,
    harity]

/-- Behind the tokens of keys an operand has to follow if none has just ended. -/
theorem operandFollows_iff (hprevious : ∀ token ∈ previous, Makes token) :
    OperandFollows previous ↔ previous.any closesOperand = false := by
  constructor
  · intro h
    cases h with
    | start | opening => rfl
    | binary => exact closesOperand_binary _
    | unary hmem harity hright =>
      rw [Option.any_some, closesOperand_unary hmem harity, hright]
      rfl
  · intro h
    cases previous with
    | none => exact .start
    | some token =>
      rw [Option.any_some] at h
      cases hprevious token rfl with
      | number | argument | constant _ | closing => cases h
      | opening => exact .opening
      | binary _ => exact .binary
      | @unary symbol op hfind =>
        obtain ⟨hmem, rfl, harity⟩ := Operator.mem_of_find? hfind
        rw [closesOperand_unary hmem harity, decide_eq_false_iff_not] at h
        refine .unary hmem harity ?_
        cases hside : op.associativity with
        | left => exact absurd hside h
        | right => rfl

/-- A term that is no parenthesis and no name: it is the symbol of an operator and
makes its token, or it makes none. -/
theorem ofSymbol?_cases (hprevious : ∀ token ∈ previous, Makes token) (term : String) :
    ((∃ op ∈ Operator.table, op.symbol = term) ∧
      ∃ token, Token.ofSymbol? term previous = some token ∧ Becomes previous term token) ∨
    ((¬∃ op ∈ Operator.table, op.symbol = term) ∧ Token.ofSymbol? term previous = none) := by
  -- The minus is the only symbol with both arities, so the token before decides for it alone.
  have htwo : ∀ op ∈ Operator.table, ∀ op' ∈ Operator.table, op.symbol = op'.symbol →
      op.arity = .unary → op'.arity = .binary → op.symbol = "-" := by decide
  have hminus (arity : Arity) : (Operator.find? "-" arity).isSome = true := by
    cases arity <;> rfl
  cases hunary : Operator.find? term .unary with
  | some op =>
    obtain ⟨hmem, rfl, harity⟩ := Operator.mem_of_find? hunary
    refine .inl ⟨⟨op, hmem, rfl⟩, ?_⟩
    cases hbinary : Operator.find? op.symbol .binary with
    | some op' =>
      obtain ⟨hmem', hsymbol, harity'⟩ := Operator.mem_of_find? hbinary
      rw [htwo op hmem op' hmem' hsymbol.symm harity harity']
      have hread : Token.ofSymbol? "-" previous =
          if previous.any closesOperand = false then some (.unary "-")
          else some (.binary "-") := rfl
      rw [hread]
      split
      · next h => exact ⟨_, rfl, .negation ((operandFollows_iff hprevious).mpr h)⟩
      · next h => exact ⟨_, rfl, .subtraction fun hf => h ((operandFollows_iff hprevious).mp hf)⟩
    | none =>
      refine ⟨_, by simp [Token.ofSymbol?, hunary, hbinary], .unary hmem harity fun heq => ?_⟩
      have hsome := hminus .binary
      rw [← heq, hbinary] at hsome
      cases hsome
  | none =>
    cases hbinary : Operator.find? term .binary with
    | some op =>
      obtain ⟨hmem, rfl, harity⟩ := Operator.mem_of_find? hbinary
      refine .inl ⟨⟨op, hmem, rfl⟩, _, by simp [Token.ofSymbol?, hunary, hbinary],
        .binary hmem harity fun heq => ?_⟩
      have hsome := hminus .unary
      rw [← heq, hunary] at hsome
      cases hsome
    | none =>
      refine .inr ⟨?_, by simp [Token.ofSymbol?, hunary, hbinary]⟩
      rintro ⟨op, hmem, rfl⟩
      have hfind := Operator.find?_of_mem op hmem
      cases harity : op.arity with
      | unary =>
        rw [harity, hunary] at hfind
        cases hfind
      | binary =>
        rw [harity, hbinary] at hfind
        cases hfind

/-- An item that is no number makes its token, or it is a bad one. -/
theorem tokenOf_cases (hprevious : ∀ token ∈ previous, Makes token)
    (hnumeric : isNumeric item = false) :
    (Fits item ∧ ∃ token, tokenOf item previous = .ok token ∧ Becomes previous item token) ∨
      (¬Fits item ∧ tokenOf item previous = .error (.badToken item)) := by
  have hfits : Fits item ↔ item = "(" ∨ item = ")" ∨ item = argumentName ∨ item ∈ constantNames ∨
      ∃ op ∈ Operator.table, op.symbol = item := by
    rw [Fits, hnumeric]
    exact Iff.rfl
  rw [hfits, tokenOf]
  by_cases hopening : item = "("
  · subst hopening
    exact .inl ⟨.inl rfl, _, rfl, .opening⟩
  by_cases hclosing : item = ")"
  · subst hclosing
    exact .inl ⟨.inr (.inl rfl), _, rfl, .closing⟩
  by_cases hargument : item = argumentName
  · subst hargument
    exact .inl ⟨.inr (.inr (.inl rfl)), _, rfl, .argument⟩
  rw [if_neg hopening, if_neg hclosing, if_neg hargument]
  by_cases hconstant : item ∈ constantNames
  · rw [if_pos (by simpa using hconstant)]
    exact .inl ⟨.inr (.inr (.inr (.inl hconstant))), _, rfl, .constant hconstant⟩
  rw [if_neg (by simpa using hconstant)]
  rcases ofSymbol?_cases hprevious item with ⟨hop, token, htoken, hbecomes⟩ | ⟨hop, hnone⟩
  · rw [htoken]
    exact .inl ⟨.inr (.inr (.inr (.inr hop))), token, rfl, hbecomes⟩
  · rw [hnone]
    exact .inr ⟨by simp [hopening, hclosing, hargument, hconstant, hop], rfl⟩

/-- Digits and points make their number, or there are too many points or no digit. -/
theorem numberOf_cases (hnumeric : isNumeric item = true) :
    (Fits item ∧ ∃ token, numberOf item = .ok token ∧ Becomes previous item token) ∨
      (¬Fits item ∧ numberOf item = .error (faultOf item)) := by
  have hfits : Fits item ↔ (∃ c ∈ item.toList, c.isDigit = true) ∧ item.toList.count '.' ≤ 1 := by
    rw [Fits, hnumeric, if_pos rfl, List.any_eq_true]
  obtain ⟨hne, hall⟩ : item.isEmpty = false ∧ item.toList.all Text.isNumeric = true := by
    simpa [isNumeric] using hnumeric
  rw [hfits, numberOf, faultOf]
  by_cases hpoints : 1 < item.toList.count '.'
  · rw [if_pos hpoints, if_pos ⟨hnumeric, hpoints⟩]
    exact .inr ⟨fun h => Nat.not_lt.mpr h.2 hpoints, rfl⟩
  · have hfew := Nat.not_lt.mp hpoints
    rw [if_neg hpoints, if_neg fun h => hpoints h.2, ← Number.exists_parse_iff hne hall hfew]
    cases hparse : Number.parse item with
    | ok value => exact .inl ⟨⟨⟨value, rfl⟩, hfew⟩, _, rfl, .number hnumeric hparse⟩
    | error _ => exact .inr ⟨fun ⟨⟨_, h⟩, _⟩ => (nomatch h), rfl⟩

/-- Every item makes its token, or it is the fault that is reported. -/
theorem tokenOfItem_cases (hprevious : ∀ token ∈ previous, Makes token) (item : String) :
    (Fits item ∧ ∃ token, tokenOfItem item previous = .ok token ∧ Becomes previous item token) ∨
      (¬Fits item ∧ tokenOfItem item previous = .error (faultOf item)) := by
  rw [tokenOfItem]
  cases hnumeric : isNumeric item with
  | true => exact numberOf_cases hnumeric
  | false =>
    have hfault : faultOf item = .badToken item := by
      rw [faultOf, hnumeric]
      rfl
    rw [hfault]
    exact tokenOf_cases hprevious hnumeric

/-- What an item becomes is a token that the keys can make. -/
theorem Becomes.makes (h : Becomes previous item token) : Makes token := by
  cases h with
  | number => exact .number
  | opening => exact .opening
  | closing => exact .closing
  | argument => exact .argument
  | constant hmem => exact .constant hmem
  | @unary op hmem harity _ =>
    have hfind := Operator.find?_of_mem op hmem
    rw [harity] at hfind
    exact .unary hfind
  | @binary op hmem harity _ =>
    have hfind := Operator.find?_of_mem op hmem
    rw [harity] at hfind
    exact .binary hfind
  | negation => exact @Makes.unary "-" ⟨"-", 5, .right, .unary⟩ rfl
  | subtraction => exact @Makes.binary "-" ⟨"-", 2, .left, .binary⟩ rfl

/-- The same of the token as the one that was made last. -/
theorem Becomes.makes_of_mem (h : Becomes previous item token) :
    ∀ other ∈ some token, Makes other := by
  rintro other ⟨⟩
  exact h.makes

/-! ## The tokens of all items -/

/-- Items that all make tokens make one token each. -/
theorem exists_becomeAll {items : List String} (hprevious : ∀ token ∈ previous, Makes token)
    (hfits : ∀ item ∈ items, Fits item) :
    ∃ ts, tokensOfItems previous items = .ok ts ∧ BecomeAll previous items ts := by
  induction items generalizing previous with
  | nil => exact ⟨[], rfl, .nil⟩
  | cons item items ih =>
    obtain ⟨hitem, hitems⟩ := List.forall_mem_cons.mp hfits
    obtain ⟨-, token, htoken, hbecomes⟩ :=
      (tokenOfItem_cases hprevious item).resolve_right fun h => h.1 hitem
    obtain ⟨ts, hts, hall⟩ := ih hbecomes.makes_of_mem hitems
    exact ⟨token :: ts, by simp [tokensOfItems, htoken, hts], .cons hbecomes hall⟩

/-- The leftmost item that makes no token is reported. -/
theorem tokensOfItems_of_not_fits {front back : List String}
    (hprevious : ∀ token ∈ previous, Makes token) (hfront : ∀ other ∈ front, Fits other)
    (hitem : ¬Fits item) :
    tokensOfItems previous (front ++ item :: back) = .error (faultOf item) := by
  induction front generalizing previous with
  | nil =>
    obtain ⟨-, herror⟩ := (tokenOfItem_cases hprevious item).resolve_left fun h => hitem h.1
    simp [tokensOfItems, herror]
  | cons first front ih =>
    obtain ⟨hfirst, hfront⟩ := List.forall_mem_cons.mp hfront
    obtain ⟨-, token, htoken, hbecomes⟩ :=
      (tokenOfItem_cases hprevious first).resolve_right fun h => h.1 hfirst
    simp [tokensOfItems, htoken, ih hbecomes.makes_of_mem hfront]

/-- If some item makes no token, there is a first one that does not. -/
theorem exists_leftmost {items : List String} (h : ¬∀ item ∈ items, Fits item) :
    ∃ front item back, items = front ++ item :: back ∧ (∀ other ∈ front, Fits other) ∧
      ¬Fits item := by
  induction items with
  | nil => exact absurd (by simp) h
  | cons first items ih =>
    by_cases hfirst : Fits first
    · obtain ⟨front, item, back, rfl, hfront, hitem⟩ :=
        ih fun hitems => h (List.forall_mem_cons.mpr ⟨hfirst, hitems⟩)
      exact ⟨first :: front, item, back, rfl, List.forall_mem_cons.mpr ⟨hfirst, hfront⟩, hitem⟩
    · exact ⟨[], first, items, rfl, by simp, hfirst⟩

/-- What the keys make. Their terms fall into groups, as many numeric terms as follow
each other or one other term, and what the groups spell are the items. There are
tokens exactly if every item makes one, and then each item makes its token in order;
otherwise the leftmost item that makes none is reported. So numeric terms that follow
each other may be cut anew in any way. -/
theorem tokens_of_groups (terms : List String) :
    ((∃ ts, tokens terms = .ok ts) ↔ ∀ item ∈ (groups terms).map String.join, Fits item) ∧
    (∀ ts, tokens terms = .ok ts → BecomeAll none ((groups terms).map String.join) ts) ∧
    (∀ front item back, (groups terms).map String.join = front ++ item :: back →
      (∀ other ∈ front, Fits other) → ¬Fits item → tokens terms = .error (faultOf item)) ∧
    ∀ front numeric numeric' back, terms = front ++ numeric ++ back →
      (∀ term ∈ numeric, isNumeric term = true) → (∀ term ∈ numeric', isNumeric term = true) →
      String.join numeric = String.join numeric' →
      tokens (front ++ numeric' ++ back) = tokens terms := by
  have hstart : ∀ token ∈ (none : Option Token), Makes token := by simp
  rw [← items_eq, tokens_eq_tokensOfItems]
  have hall (hfits : ∀ item ∈ items terms, Fits item) := exists_becomeAll hstart hfits
  have hfault (hnot : ¬∀ item ∈ items terms, Fits item) :
      ∃ item, tokensOfItems none (items terms) = .error (faultOf item) := by
    obtain ⟨front, item, back, heq, hfront, hitem⟩ := exists_leftmost hnot
    exact ⟨item, heq ▸ tokensOfItems_of_not_fits hstart hfront hitem⟩
  have hiff : (∃ ts, tokensOfItems none (items terms) = .ok ts) ↔
      ∀ item ∈ items terms, Fits item := by
    refine ⟨fun ⟨ts, hts⟩ => ?_, fun hfits => (hall hfits).imp fun _ h => h.1⟩
    by_contra hnot
    obtain ⟨item, herror⟩ := hfault hnot
    rw [hts] at herror
    cases herror
  refine ⟨hiff, fun ts hts => ?_, fun front item back heq hfront hitem => ?_, ?_⟩
  · obtain ⟨ts', hts', hbecome⟩ := hall (hiff.mp ⟨ts, hts⟩)
    rw [hts] at hts'
    cases hts'
    exact hbecome
  · rw [heq]
    exact tokensOfItems_of_not_fits hstart hfront hitem
  · rintro front numeric numeric' back rfl hnumeric hnumeric' hjoin
    rw [tokens_eq_tokensOfItems, items_congr hnumeric' hnumeric hjoin.symm]

/-- A minus, a number keyed in two terms, the variable, and a number with two points. -/
def twoPointKeys : List String := ["-", "1", "2", "x", "1.", ".2"]

/-- Both points are keyed together. -/
def recutKeys : List String := ["-", "1", "2", "x", "1..", "2"]

/-- Two points in one number are reported, wherever the keys of the number are cut. -/
theorem tokens_of_groups_twoPointKeys :
    (groups twoPointKeys).map String.join = ["-", "12", "x"] ++ ["1..2"] ∧
      (∀ item ∈ ["-", "12", "x"], Fits item) ∧ ¬Fits "1..2" ∧
      (∀ term ∈ ["1.", ".2"], isNumeric term = true) ∧
      (∀ term ∈ ["1..", "2"], isNumeric term = true) ∧
      String.join ["1.", ".2"] = String.join ["1..", "2"] ∧
      tokens twoPointKeys = .error (.severalPoints "1..2") ∧
      tokens recutKeys = .error (.severalPoints "1..2") := by
  obtain ⟨-, -, hfault, hcut⟩ := tokens_of_groups twoPointKeys
  have hitems : (groups twoPointKeys).map String.join = ["-", "12", "x"] ++ ["1..2"] := by decide
  have hfits : ∀ item ∈ ["-", "12", "x"], Fits item := by decide
  have hnot : ¬Fits "1..2" := by decide
  have hnumeric : ∀ term ∈ ["1.", ".2"], isNumeric term = true := by decide
  have hnumeric' : ∀ term ∈ ["1..", "2"], isNumeric term = true := by decide
  have hjoin : String.join ["1.", ".2"] = String.join ["1..", "2"] := by decide
  have hreported : tokens twoPointKeys = .error (.severalPoints "1..2") :=
    hfault ["-", "12", "x"] "1..2" [] hitems hfits hnot
  refine ⟨hitems, hfits, hnot, hnumeric, hnumeric', hjoin, hreported, ?_⟩
  rw [← hreported]
  exact hcut ["-", "1", "2", "x"] ["1.", ".2"] ["1..", "2"] [] rfl hnumeric hnumeric' hjoin

end Keypad

end FormulaCalculator
