import FormulaCalculator.Proofs.FormulaGrammar
import FormulaCalculator.Proofs.NumberRoundTrip
import FormulaCalculator.Proofs.ShuntingYard
import FormulaCalculator.Proofs.TreeValue

/-!
# The trees of typed formulas

The postfix order of a typed formula has no tokens but those of the formula. If
its numbers are finite and it has a value, then it is a tree of numbers without
a sign, names, signs and calls of known functions.
-/

set_option autoImplicit false

namespace FormulaCalculator

namespace Postfix

/-- All tokens of an expression that was read from a text can be typed. -/
theorem exists_typedBefore_of_ofText {text : String} {expression : Postfix}
    (h : ofText text = .ok expression) :
    ∀ token ∈ expression.tokens, ∃ rest, token.TypedBefore rest := by
  obtain ⟨out, hout, rfl⟩ := map_eq_ok_iff.mp h
  intro token hmem
  rcases mem_of_arrange hout token hmem with hnil | htokens
  · cases hnil
  · rw [Lexed.tokens_ofText] at htokens
    exact Lexeme.exists_typedBefore htokens

end Postfix

namespace Operator

/-- The operators that are typed as signs. -/
def signs : List Operator :=
  table.filter fun op => op.symbol.toList.all Scan.operatorSigns.contains

/-- The operators that are typed as names. -/
def functions : List Operator :=
  table.filter fun op => op.symbol.toList.all Text.startsName

variable {op : Operator}

/-- A sign that is typed is found in the table, with the arity that it has. -/
theorem find?_of_mem_signs {arity : Arity} (h : op ∈ signs) (harity : op.arity = arity) :
    find? op.symbol arity = some op := by
  rw [← harity]
  exact find?_of_mem op (List.mem_filter.mp h).1

/-- A function that is typed is found in the table. -/
theorem find?_of_mem_functions (h : op ∈ functions) : find? op.symbol .unary = some op := by
  have hunary : ∀ op ∈ functions, op.arity = .unary := by
    decide
  rw [← hunary op h]
  exact find?_of_mem op (List.mem_filter.mp h).1

/-- A call of a function is the operator of the table. -/
theorem operator?_of_mem_functions (h : op ∈ functions) :
    (Token.call op.symbol).operator? = some op := by
  rw [Token.operator?, find?_of_mem_functions h]
  rfl

/-- The functions that are typed have names of letters. -/
theorem isName_of_mem_functions (h : op ∈ functions) : IsName op.symbol := by
  have hne : ∀ op ∈ functions, op.symbol.toList ≠ [] := by
    decide
  exact isName_of_letters (hne op h) (List.mem_filter.mp h).2

end Operator

namespace OperatorTree

/-- The tree of a formula that can be typed and whose functions are known. -/
inductive Typable : OperatorTree → Prop where
  | number {value : Float} : Number.Unsigned value → Typable (.leaf (.number value))
  | argument : Typable (.leaf (.argument argumentName))
  | constant {name : String} : IsName name → name ≠ argumentName →
      Typable (.leaf (.constant name))
  | negated {operand : OperatorTree} : Typable operand →
      Typable (.unary Token.negation (.unary "-") operand)
  | call {op : Operator} {operand : OperatorTree} : op ∈ Operator.functions →
      Typable operand → Typable (.unary op (.call op.symbol) operand)
  | binary {op : Operator} {left right : OperatorTree} : op ∈ Operator.signs →
      op.arity = .binary → Typable left → Typable right →
      Typable (.binary op (.binary op.symbol) left right)

variable {tree : OperatorTree}

/-- In a tree that can be typed every operator is the one of its token. -/
theorem Typable.sound (h : tree.Typable) : tree.Sound := by
  induction h with
  | number | argument | constant => exact .leaf rfl
  | negated _ ih => exact .unary rfl rfl ih
  | call hmem _ ih =>
    have harity := (Operator.mem_of_find? (Operator.find?_of_mem_functions hmem)).2.2
    exact .unary (Operator.operator?_of_mem_functions hmem) harity ih
  | binary hmem harity _ _ ihl ihr =>
    exact .binary (Operator.find?_of_mem_signs hmem harity) harity ihl ihr

/-- Every character of a name is one that can go on with a name. -/
theorem continuesName_of_isName {name : String} (h : IsName name) :
    name.toList.all Text.continuesName = true := by
  obtain ⟨first, rest, rfl, hfirst, hrest⟩ := h
  simpa [Text.continuesName_of_startsName hfirst] using hrest

/-- A name that the table knows as a unary operator is that of a function, for no sign is
a name. -/
theorem mem_functions_of_find? {name : String} {op : Operator} (hname : IsName name)
    (h : Operator.find? name .unary = some op) : op ∈ Operator.functions ∧ op.symbol = name := by
  obtain ⟨hmem, rfl, harity⟩ := Operator.mem_of_find? h
  have htable : ∀ op ∈ Operator.table, op.arity = .unary →
      op.symbol.toList.all Text.continuesName = true →
      op.symbol.toList.all Text.startsName = true := by
    decide
  exact ⟨List.mem_filter.mpr ⟨hmem, htable op hmem harity (continuesName_of_isName hname)⟩, rfl⟩

/-- A tree with a value is one that can be typed, if its tokens are. -/
theorem HasValue.typable {bindings : Bindings} {value : Float} (h : tree.HasValue bindings value)
    (hsound : tree.Sound) (htyped : ∀ token ∈ tree.postorder, ∃ rest, token.TypedBefore rest)
    (hfinite : ∀ number, .number number ∈ tree.postorder → number.isFinite = true) :
    tree.Typable := by
  induction h with
  | @number number =>
    obtain ⟨rest, htoken⟩ := htyped (.number number) (List.mem_singleton_self _)
    cases htoken with
    | number hfirst hparse =>
      exact .number (Number.unsigned_of_parse hfirst hparse (hfinite _ (List.mem_singleton_self _)))
    | adds h | scales h => cases h
  | @argument name =>
    obtain ⟨rest, htoken⟩ := htyped (.argument name) (List.mem_singleton_self _)
    cases htoken with
    | argument => exact .argument
    | adds h | scales h => cases h
  | @constant name =>
    obtain ⟨rest, htoken⟩ := htyped (.constant name) (List.mem_singleton_self _)
    cases htoken with
    | constant hname hne => exact .constant hname hne
    | adds h | scales h => cases h
  | @unary op symbol operand o _ _ _ ih =>
    rw [postorder_unary] at htyped hfinite
    cases hsound with
    | unary hop _ hoperand =>
      have hoperand' := ih hoperand (fun t ht => htyped t (by simp [ht]))
        (fun n hn => hfinite n (by simp [hn]))
      obtain ⟨rest, htoken⟩ := htyped (.unary symbol) (by simp)
      obtain rfl : symbol = "-" := by
        cases htoken with
        | negation => rfl
        | adds h | scales h => cases h
      obtain rfl : Token.negation = op := Option.some.inj hop
      exact .negated hoperand'
  | @call op name operand o _ _ happly ih =>
    rw [postorder_unary] at htyped hfinite
    cases hsound with
    | unary hop _ hoperand =>
      have hoperand' := ih hoperand (fun t ht => htyped t (by simp [ht]))
        (fun n hn => hfinite n (by simp [hn]))
      obtain ⟨rest, htoken⟩ := htyped (.call name) (by simp)
      have hname : IsName name := by
        cases htoken with
        | call hname _ => exact hname
        | adds h | scales h => cases h
      -- A call of an unknown function has an operator too, but it computes nothing.
      obtain ⟨f, hf, -⟩ := Option.map_eq_some_iff.mp happly
      obtain ⟨other, hfind⟩ := Operator.exists_find?_of_unaryFunction? hf
      rw [Token.operator?, hfind] at hop
      obtain rfl := Option.some.inj hop
      obtain ⟨hmem, hsymbol⟩ := mem_functions_of_find? hname hfind
      rw [← hsymbol]
      exact .call hmem hoperand'
  | @binary op symbol left right l r _ _ _ _ ihl ihr =>
    rw [postorder_binary] at htyped hfinite
    cases hsound with
    | binary hop _ hleft hright =>
      have hleft' := ihl hleft (fun t ht => htyped t (by simp [ht]))
        (fun n hn => hfinite n (by simp [hn]))
      have hright' := ihr hright (fun t ht => htyped t (by simp [ht]))
        (fun n hn => hfinite n (by simp [hn]))
      obtain ⟨rest, htoken⟩ := htyped (.binary symbol) (by simp)
      have hsigns : symbol.toList.all Scan.operatorSigns.contains = true := by
        cases htoken with
        | adds h => cases h <;> decide
        | scales h => cases h <;> decide
        | power => decide
      obtain ⟨hmem, rfl, harity⟩ := Operator.mem_of_find? hop
      exact .binary (List.mem_filter.mpr ⟨hmem, hsigns⟩) harity hleft' hright'

end OperatorTree

end FormulaCalculator
