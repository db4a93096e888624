import FormulaCalculator.Postfix.Evaluate
import FormulaCalculator.Proofs.ParenthesisBalance

/-!
# The number of values on the stack

A postfix expression of operands and operators of the table is evaluated until a
name has no value or an operator lacks operands. If neither happens, the number of
values that are left is known beforehand: every operand adds one, every binary
operator takes one away, and a unary operator leaves as many as it finds.

So the counts of the tokens tell how an evaluation can end, whatever the order of
the tokens, and bringing them into postfix order does not change the counts.
-/

set_option autoImplicit false

namespace FormulaCalculator

namespace Operator

variable {symbol : String} {op : Operator}

/-- Every unary operator of the table computes something. -/
theorem exists_applyUnary? (h : find? symbol .unary = some op) (operand : Float) :
    ∃ value, applyUnary? symbol operand = some value := by
  have htable : ∀ op ∈ table, op.arity = .unary → (unaryFunction? op.symbol).isSome = true := by
    decide
  obtain ⟨hmem, rfl, harity⟩ := mem_of_find? h
  obtain ⟨f, hf⟩ := Option.isSome_iff_exists.mp (htable op hmem harity)
  exact ⟨f operand, by rw [applyUnary?, hf, Option.map_some]⟩

/-- Every binary operator of the table computes something. -/
theorem exists_applyBinary? (h : find? symbol .binary = some op) (left right : Float) :
    ∃ value, applyBinary? symbol left right = some value := by
  have htable : ∀ op ∈ table, op.arity = .binary → (binaryFunction? op.symbol).isSome = true := by
    decide
  obtain ⟨hmem, rfl, harity⟩ := mem_of_find? h
  obtain ⟨f, hf⟩ := Option.isSome_iff_exists.mp (htable op hmem harity)
  exact ⟨f left right, by rw [applyBinary?, hf, Option.map_some]⟩

end Operator

namespace Token

/-- Whether a token is an operator between its operands. -/
def isBinary : Token → Bool
  | .binary _ => true
  | _ => false

/-- The name that a token stands for the value of. -/
def valueName? : Token → Option String
  | .argument name | .constant name => some name
  | _ => none

/-- Whether a token can be evaluated: it is an operand, or an operator or a function
of the table. -/
def isEvaluable : Token → Bool
  | .number _ | .argument _ | .constant _ => true
  | .unary symbol | .call symbol => (Operator.find? symbol .unary).isSome
  | .binary symbol => (Operator.find? symbol .binary).isSome
  | _ => false

/-- A parenthesis has a place in an expression. -/
theorem isKnown_of_isParenthesis {token : Token} (h : token.isParenthesis = true) :
    token.isKnown = true := by
  cases token with
  | opening | closing => rfl
  | _ => cases h

/-- What can be evaluated has a place in an expression. -/
theorem isKnown_of_isEvaluable {token : Token} (h : token.isEvaluable = true) :
    token.isKnown = true := by
  cases token with
  | unary _ | binary _ => exact h
  | stray _ => cases h
  | _ => rfl

end Token

namespace Postfix

open Token

variable {bindings : Bindings} {token : Token} {tokens tokens' : List Token} {values : List Float}
  {result : Except CalculationError Float}

/-- What tokens make of a stack of values: a stack whose height follows from the
counts of the tokens, or an error that one of the tokens is the cause of. -/
inductive Pushes (bindings : Bindings) (tokens : List Token) (values : List Float) :
    Except CalculationError (List Float) → Prop where
  | values {values' : List Float} :
      values'.length + tokens.countP isBinary = values.length + tokens.countP isOperand →
      Pushes bindings tokens values (.ok values')
  | unknownName {token : Token} {name : String} : token ∈ tokens →
      token.valueName? = some name → bindings.get? name = none →
      Pushes bindings tokens values (.error (.unknownName name))
  | missingOperands {token : Token} {op : Operator} : token ∈ tokens →
      token.operator? = some op →
      Pushes bindings tokens values (.error (.missingOperands token.symbol))

/-- A name adds its value to the stack, or it is the cause of an error if it has none. -/
theorem pushes_name {name : String} (hname : token.valueName? = some name)
    (hoperand : token.isOperand = true) (hbinary : token.isBinary = false)
    (hpush : push bindings values token = (bindings.valueOf name).map (· :: values)) :
    Pushes bindings [token] values (push bindings values token) := by
  rw [hpush, Bindings.valueOf]
  cases hget : bindings.get? name with
  | none => exact .unknownName (List.mem_singleton_self token) hname hget
  | some value =>
    refine .values ?_
    simp [hoperand, hbinary]

/-- A unary operator leaves as many values as it finds, or it lacks its operand. -/
theorem pushes_unary {symbol : String} {op : Operator}
    (hfind : Operator.find? symbol .unary = some op) (hop : token.operator? = some op)
    (hsymbol : token.symbol = symbol) (hoperand : token.isOperand = false)
    (hbinary : token.isBinary = false) :
    Pushes bindings [token] values (pushUnary symbol values) := by
  cases values with
  | nil =>
    subst hsymbol
    exact .missingOperands (List.mem_singleton_self token) hop
  | cons operand values =>
    obtain ⟨value, hvalue⟩ := Operator.exists_applyUnary? hfind operand
    rw [pushUnary, hvalue]
    refine .values ?_
    simp [hoperand, hbinary]

/-- A binary operator takes one value away, or it lacks an operand. -/
theorem pushes_binary {symbol : String} {op : Operator}
    (hfind : Operator.find? symbol .binary = some op) :
    Pushes bindings [.binary symbol] values (pushBinary symbol values) := by
  have hop : (Token.binary symbol).operator? = some op := hfind
  match values with
  | [] | [_] => exact .missingOperands (List.mem_singleton_self _) hop
  | right :: left :: values =>
    obtain ⟨value, hvalue⟩ := Operator.exists_applyBinary? hfind left right
    rw [pushBinary, hvalue]
    refine .values ?_
    simp [isBinary, isOperand]

/-- One token that can be evaluated. -/
theorem pushes_singleton (h : token.isEvaluable = true) :
    Pushes bindings [token] values (push bindings values token) := by
  cases token with
  | number value => exact .values (by simp [isBinary, isOperand])
  | argument name | constant name => exact pushes_name rfl rfl rfl rfl
  | unary symbol =>
    obtain ⟨op, hop⟩ := Option.isSome_iff_exists.mp h
    exact pushes_unary hop hop rfl rfl rfl
  | call name =>
    obtain ⟨op, hop⟩ := Option.isSome_iff_exists.mp h
    exact pushes_unary hop (by simp [operator?, hop]) rfl rfl rfl
  | binary symbol =>
    obtain ⟨op, hop⟩ := Option.isSome_iff_exists.mp h
    exact pushes_binary hop
  | stray _ | opening | closing => cases h

/-- What tokens make of a stack, by induction on the tokens: the counts add up as long as
there is no error. -/
theorem pushes (h : ∀ token ∈ tokens, token.isEvaluable = true) :
    Pushes bindings tokens values (tokens.foldlM (push bindings) values) := by
  induction tokens generalizing values with
  | nil => exact .values (by simp)
  | cons token tokens ih =>
    obtain ⟨htoken, htokens⟩ := List.forall_mem_cons.mp h
    -- An error of the first token ends the run. Else the rest starts from the stack
    -- that it leaves, and the two changes of the height add up.
    have hstep := @pushes_singleton bindings token values htoken
    rw [List.foldlM_cons]
    generalize push bindings values token = next at hstep
    cases hstep with
    | unknownName hmem hname hget =>
      obtain rfl := List.mem_singleton.mp hmem
      exact .unknownName List.mem_cons_self hname hget
    | missingOperands hmem hop =>
      obtain rfl := List.mem_singleton.mp hmem
      exact .missingOperands List.mem_cons_self hop
    | @values values' hheight =>
      have hrun := @ih values' htokens
      rw [ok_bind]
      generalize tokens.foldlM (push bindings) values' = last at hrun
      cases hrun with
      | unknownName hmem hname hget =>
        exact .unknownName (List.mem_cons_of_mem token hmem) hname hget
      | missingOperands hmem hop => exact .missingOperands (List.mem_cons_of_mem token hmem) hop
      | values hlast =>
        refine .values ?_
        simp only [List.countP_cons, List.countP_nil] at hheight ⊢
        omega

/-- How the evaluation of tokens ends: with a value if there is one operand more
than there are binary operators, else with an error that the tokens are the cause
of. -/
inductive Outcome (bindings : Bindings) (tokens : List Token) :
    Except CalculationError Float → Prop where
  | value {value : Float} : tokens.countP isOperand = 1 + tokens.countP isBinary →
      Outcome bindings tokens (.ok value)
  | unknownName {token : Token} {name : String} : token ∈ tokens →
      token.valueName? = some name → bindings.get? name = none →
      Outcome bindings tokens (.error (.unknownName name))
  | missingOperands {token : Token} {op : Operator} : token ∈ tokens →
      token.operator? = some op → Outcome bindings tokens (.error (.missingOperands token.symbol))
  | leftoverValues {count : Nat} : count ≠ 1 →
      tokens.countP isOperand = count + tokens.countP isBinary →
      Outcome bindings tokens (.error (.leftoverValues count))

/-- How the evaluation of tokens ends can be told from their counts, unless a token is the
cause of an error. -/
theorem outcome_evaluate (h : ∀ token ∈ tokens, token.isEvaluable = true) :
    Outcome bindings tokens ((Postfix.mk tokens).evaluate bindings) := by
  have hrun := @pushes bindings tokens [] h
  rw [evaluate]
  generalize tokens.foldlM (push bindings) [] = last at hrun
  cases hrun with
  | unknownName hmem hname hget => exact .unknownName hmem hname hget
  | missingOperands hmem hop => exact .missingOperands hmem hop
  | @values values hheight =>
    rw [List.length_nil, Nat.zero_add] at hheight
    rw [ok_bind]
    match values with
    | [value] => exact .value hheight.symm
    | [] => exact .leftoverValues (by simp) hheight.symm
    | first :: second :: values => exact .leftoverValues (by simp) hheight.symm

/-- An evaluation of tokens of the table never calls a token bad. -/
theorem Outcome.ne_badToken {text : String} (h : Outcome bindings tokens result) :
    result ≠ .error (.badToken text) := by
  cases h <;> simp

/-- The outcome is one of other tokens too, if they have the same counts and none
of the tokens is missing among them. -/
theorem Outcome.of_subset (h : Outcome bindings tokens result) (hsubset : tokens ⊆ tokens')
    (hoperands : tokens.countP isOperand = tokens'.countP isOperand)
    (hbinaries : tokens.countP isBinary = tokens'.countP isBinary) :
    Outcome bindings tokens' result := by
  cases h with
  | value hcount => exact .value (by rw [← hoperands, ← hbinaries, hcount])
  | unknownName hmem hname hget => exact .unknownName (hsubset hmem) hname hget
  | missingOperands hmem hop => exact .missingOperands (hsubset hmem) hop
  | leftoverValues hne hcount =>
    exact .leftoverValues hne (by rw [← hoperands, ← hbinaries, hcount])

/-- Taking out the parentheses does not change the count of any other kind of token. -/
theorem countP_withoutParentheses {p : Token → Bool}
    (h : ∀ token : Token, p token = true → token.isParenthesis = false) :
    (withoutParentheses tokens).countP p = tokens.countP p := by
  rw [withoutParentheses, List.countP_filter]
  refine List.countP_congr fun token _ => ?_
  cases hp : p token with
  | false => simp
  | true => simp [h token hp]

/-- Tokens that can be evaluated, and parentheses that are balanced, have a postfix
order whose evaluation ends as the counts of the tokens tell. -/
theorem exists_ofTokens_outcome (hbalanced : Balanced tokens)
    (h : ∀ token ∈ tokens, token.isParenthesis = false → token.isEvaluable = true) :
    ∃ expression, ofTokens tokens = .ok expression ∧
      Outcome bindings tokens (expression.evaluate bindings) := by
  have hknown : ∀ token ∈ tokens, token.isKnown = true := by
    intro token htoken
    cases hparenthesis : token.isParenthesis with
    | false => exact isKnown_of_isEvaluable (h token htoken hparenthesis)
    | true => exact isKnown_of_isParenthesis hparenthesis
  obtain ⟨-, expression, hexpression, hperm⟩ :=
    (ofTokens_cases hknown).resolve_right fun hnot => hnot.1 hbalanced
  have hmem {token : Token} (htoken : token ∈ expression.tokens) :
      token ∈ tokens ∧ token.isParenthesis = false := by
    simpa [withoutParentheses] using hperm.mem_iff.mp htoken
  have hrun : Outcome bindings expression.tokens (expression.evaluate bindings) :=
    outcome_evaluate fun token htoken => h token (hmem htoken).1 (hmem htoken).2
  refine ⟨expression, hexpression, hrun.of_subset (fun token htoken => (hmem htoken).1) ?_ ?_⟩
  · rw [hperm.countP_eq, countP_withoutParentheses]
    intro token htoken
    cases token <;> first | rfl | cases htoken
  · rw [hperm.countP_eq, countP_withoutParentheses]
    intro token htoken
    cases token <;> first | rfl | cases htoken

end Postfix

end FormulaCalculator
