import FormulaCalculator.Postfix.Written
import FormulaCalculator.Proofs.OperandCount
import FormulaCalculator.Proofs.TreeValue

/-!
# Evaluation and the tree of an expression

An expression of operands and known operators, with a value for every name, can
only fail for its shape. Whether an operator finds its operands is a matter of
counting: in front of it every operand leaves a value, and every binary operator
takes one away. So the evaluation goes as the counts say, up to the first operator
that lacks operands or to the end, and it gives a value exactly if the expression
is a tree.
-/

set_option autoImplicit false

namespace FormulaCalculator

namespace Token

/-- How many operands a token takes. -/
def operandCount (token : Token) : Nat :=
  match token.operator?.map Operator.arity with
  | none => 0
  | some .unary => 1
  | some .binary => 2

variable {token : Token} {op : Operator}

/-- An operator with one operand stands beside it, or it is called. -/
theorem exists_of_operator?_unary (hop : token.operator? = some op) (harity : op.arity = .unary) :
    ∃ symbol, token = .unary symbol ∨ token = .call symbol := by
  cases token with
  | unary symbol => exact ⟨symbol, .inl rfl⟩
  | call name => exact ⟨name, .inr rfl⟩
  | binary symbol =>
    rw [(Operator.mem_of_find? hop).2.2] at harity
    cases harity
  | _ => cases hop

/-- An operator with two operands stands between them. -/
theorem exists_of_operator?_binary (hop : token.operator? = some op)
    (harity : op.arity = .binary) :
    ∃ symbol, token = .binary symbol ∧ Operator.find? symbol .binary = some op := by
  cases token with
  | binary symbol => exact ⟨symbol, rfl, hop⟩
  | unary symbol =>
    rw [(Operator.mem_of_find? hop).2.2] at harity
    cases harity
  | call name =>
    obtain ⟨other, hother, hunary⟩ := exists_operator?_call name
    rw [hother] at hop
    rw [← Option.some.inj hop, hunary] at harity
    cases harity
  | _ => cases hop

end Token

namespace Postfix

open Token OperatorTree

/-- The tokens in front of a token leave fewer values than it takes. -/
def LacksOperands (before : List Token) (token : Token) : Prop :=
  before.countP isOperand < before.countP isBinary + token.operandCount

/-- The token behind the given ones is the first that lacks operands. -/
structure IsFirstLacking (tokens before : List Token) (token : Token) : Prop where
  isPrefix : before ++ [token] <+: tokens
  lacks : LacksOperands before token
  isFirst : ∀ earlier other later, before = earlier ++ other :: later →
    ¬LacksOperands earlier other

/-- Every name that the tokens mention has a value. -/
def BindsAll (bindings : Bindings) (tokens : List Token) : Prop :=
  ∀ token ∈ tokens, ∀ name, token.valueName? = some name →
    ∃ value, bindings.get? name = some value

variable {bindings : Bindings} {token : Token} {tokens : List Token} {values : List Float}

/-- A unary operator of the table needs one value and fails only without it. -/
theorem pushUnary_cases {symbol : String} {op : Operator}
    (hfind : Operator.find? symbol .unary = some op) :
    1 ≤ values.length ∧ (∃ values', pushUnary symbol values = .ok values') ∨
      values.length < 1 ∧ pushUnary symbol values = .error (.missingOperands symbol) := by
  cases values with
  | nil => exact .inr ⟨Nat.zero_lt_one, rfl⟩
  | cons operand values =>
    obtain ⟨value, hvalue⟩ := Operator.exists_applyUnary? hfind operand
    exact .inl ⟨by simp, value :: values, by rw [pushUnary, hvalue]⟩

/-- A binary operator of the table needs two values and fails only without them. -/
theorem pushBinary_cases {symbol : String} {op : Operator}
    (hfind : Operator.find? symbol .binary = some op) :
    2 ≤ values.length ∧ (∃ values', pushBinary symbol values = .ok values') ∨
      values.length < 2 ∧ pushBinary symbol values = .error (.missingOperands symbol) := by
  match values with
  | [] | [_] => exact .inr ⟨by simp, rfl⟩
  | right :: left :: values =>
    obtain ⟨value, hvalue⟩ := Operator.exists_applyBinary? hfind left right
    exact .inl ⟨by simp, value :: values, by rw [pushBinary, hvalue]⟩

/-- A name that is bound always adds its value. -/
theorem exists_push_name {name : String} (hvalue : ∃ value, bindings.get? name = some value)
    (hpush : push bindings values token = (bindings.valueOf name).map (· :: values)) :
    ∃ values', push bindings values token = .ok values' := by
  obtain ⟨value, hget⟩ := hvalue
  exact ⟨value :: values, by rw [hpush, Bindings.valueOf, hget, map_ok]⟩

/-- A token finds its operands on the stack, or it is reported. -/
theorem push_cases (hevaluable : token.isEvaluable = true)
    (hbound : ∀ name, token.valueName? = some name → ∃ value, bindings.get? name = some value) :
    token.operandCount ≤ values.length ∧ (∃ values', push bindings values token = .ok values') ∨
      values.length < token.operandCount ∧
        push bindings values token = .error (.missingOperands token.symbol) := by
  cases token with
  | number value => exact .inl ⟨Nat.zero_le _, _, rfl⟩
  | argument name | constant name =>
    exact .inl ⟨Nat.zero_le _, exists_push_name (hbound name rfl) rfl⟩
  | unary symbol =>
    obtain ⟨op, hop⟩ := Option.isSome_iff_exists.mp hevaluable
    have hcount : (Token.unary symbol).operandCount = 1 := by
      simp [operandCount, operator?, hop, (Operator.mem_of_find? hop).2.2]
    rw [hcount]
    exact pushUnary_cases hop
  | call name =>
    obtain ⟨op, hop⟩ := Option.isSome_iff_exists.mp hevaluable
    have hcount : (Token.call name).operandCount = 1 := by
      simp [operandCount, operator?, hop, (Operator.mem_of_find? hop).2.2]
    rw [hcount]
    exact pushUnary_cases hop
  | binary symbol =>
    obtain ⟨op, hop⟩ := Option.isSome_iff_exists.mp hevaluable
    have hcount : (Token.binary symbol).operandCount = 2 := by
      simp [operandCount, operator?, hop, (Operator.mem_of_find? hop).2.2]
    rw [hcount]
    exact pushBinary_cases hop
  | stray _ | opening | closing => cases hevaluable

/-- The counts of tokens that can be evaluated tell how many values they leave. -/
theorem length_of_foldlM_push (hevaluable : ∀ token ∈ tokens, token.isEvaluable = true)
    (h : tokens.foldlM (push bindings) [] = .ok values) :
    values.length + tokens.countP isBinary = tokens.countP isOperand := by
  have hrun := @pushes bindings tokens [] hevaluable
  rw [h] at hrun
  cases hrun with
  | values hheight => rwa [List.length_nil, Nat.zero_add] at hheight

/-- Behind tokens that leave values, a token lacks operands exactly if the stack is
too low for it. -/
theorem lacksOperands_iff (hevaluable : ∀ token ∈ tokens, token.isEvaluable = true)
    (h : tokens.foldlM (push bindings) [] = .ok values) :
    LacksOperands tokens token ↔ values.length < token.operandCount := by
  have hlength := length_of_foldlM_push hevaluable h
  unfold LacksOperands
  omega

/-- No token lacks operands in a run that comes to its end. -/
theorem not_lacksOperands_of_foldlM_push
    (hevaluable : ∀ token ∈ tokens, token.isEvaluable = true) (hbound : BindsAll bindings tokens)
    (h : tokens.foldlM (push bindings) [] = .ok values) :
    ∀ before token after, tokens = before ++ token :: after → ¬LacksOperands before token := by
  rintro before token after rfl
  rw [List.foldlM_append, bind_eq_ok_iff] at h
  obtain ⟨middle, hbefore, hrest⟩ := h
  rw [List.foldlM_cons, bind_eq_ok_iff] at hrest
  obtain ⟨next, hnext, -⟩ := hrest
  have hmem : token ∈ before ++ token :: after := by simp
  rw [lacksOperands_iff (fun other hother => hevaluable other (by simp [hother])) hbefore]
  rcases @push_cases bindings token middle (hevaluable token hmem) (hbound token hmem) with
    ⟨hle, -⟩ | ⟨-, herror⟩
  · exact Nat.not_lt.mpr hle
  · rw [hnext] at herror
    cases herror

/-- A run that fails does so at the first token that lacks operands. -/
theorem exists_isFirstLacking (hevaluable : ∀ token ∈ tokens, token.isEvaluable = true)
    (hbound : BindsAll bindings tokens) {e : CalculationError}
    (h : tokens.foldlM (push bindings) [] = .error e) :
    ∃ before token, IsFirstLacking tokens before token ∧ e = .missingOperands token.symbol := by
  obtain ⟨before, token, after, middle, rfl, hbefore, hnext⟩ := exists_of_foldlM_eq_error h
  have hmem : token ∈ before ++ token :: after := by simp
  have hevaluable' : ∀ other ∈ before, other.isEvaluable = true :=
    fun other hother => hevaluable other (by simp [hother])
  have hbound' : BindsAll bindings before := fun other hother => hbound other (by simp [hother])
  rcases @push_cases bindings token middle (hevaluable token hmem) (hbound token hmem) with
    ⟨-, values', hok⟩ | ⟨hlt, herror⟩
  · rw [hok] at hnext
    cases hnext
  · rw [herror] at hnext
    refine ⟨before, token, ⟨?_, ?_, ?_⟩, (Except.error.inj hnext).symm⟩
    · simp
    · exact (lacksOperands_iff hevaluable' hbefore).mpr hlt
    · exact not_lacksOperands_of_foldlM_push hevaluable' hbound' hbefore

end Postfix

namespace OperatorTree

open Token Postfix

/-- The value of a tree from its operands up, the left one first. A name without a
value stands in the way of it. -/
def valueIn (bindings : Bindings) : OperatorTree → Except CalculationError Float
  | .leaf (.number value) => .ok value
  | .leaf (.argument name) | .leaf (.constant name) => bindings.valueOf name
  | .leaf token => .error (.badToken token.symbol)
  | .unary _ token operand => do
    let o ← operand.valueIn bindings
    match Operator.applyUnary? token.symbol o with
    | some value => .ok value
    | none => .error (.badToken token.symbol)
  | .binary _ token left right => do
    let l ← left.valueIn bindings
    let r ← right.valueIn bindings
    match Operator.applyBinary? token.symbol l r with
    | some value => .ok value
    | none => .error (.badToken token.symbol)

variable {bindings : Bindings} {tree : OperatorTree} {op : Operator} {token : Token}

/-- A token with a unary operator applies it, whether it is written as a sign or as a
call. -/
theorem push_of_unary (hop : token.operator? = some op) (harity : op.arity = .unary)
    (values : List Float) : push bindings values token = pushUnary token.symbol values := by
  obtain ⟨symbol, rfl | rfl⟩ := exists_of_operator?_unary hop harity <;> rfl

/-- A token with a binary operator applies it. -/
theorem push_of_binary (hop : token.operator? = some op) (harity : op.arity = .binary)
    (values : List Float) : push bindings values token = pushBinary token.symbol values := by
  obtain ⟨symbol, rfl, -⟩ := exists_of_operator?_binary hop harity
  rfl

/-- A token without an operator adds the value that it has as a tree by itself. -/
theorem push_leaf (hop : token.operator? = none) (hevaluable : token.isEvaluable = true)
    (values : List Float) :
    push bindings values token = (valueIn bindings (.leaf token)).map (· :: values) := by
  cases token with
  | number value => rfl
  | argument name | constant name => cases h : bindings.valueOf name <;> simp [push, valueIn, h]
  | unary symbol | binary symbol | call symbol => simp_all [isEvaluable, operator?]
  | _ => cases hevaluable

/-- Evaluating the postfix order of a tree puts the value of the tree on the stack. -/
theorem Sound.foldlM_push (h : tree.Sound)
    (hevaluable : ∀ token ∈ tree.postorder, token.isEvaluable = true) (values : List Float) :
    tree.postorder.foldlM (push bindings) values =
      (tree.valueIn bindings).map (· :: values) := by
  -- The stack below is arbitrary: the right operand is evaluated on top of the left one.
  induction h generalizing values with
  | @leaf token hop =>
    have htoken := hevaluable token (List.mem_singleton_self token)
    rw [postorder_leaf, List.foldlM_cons, push_leaf hop htoken]
    cases valueIn bindings (.leaf token) <;> rfl
  | @unary op token operand hop harity _ ih =>
    rw [postorder_unary] at hevaluable ⊢
    rw [List.foldlM_append, ih (fun other hother => hevaluable other (by simp [hother]))]
    simp only [valueIn, List.foldlM_cons, List.foldlM_nil, push_of_unary hop harity]
    cases operand.valueIn bindings with
    | error e => rfl
    | ok o => cases happly : Operator.applyUnary? token.symbol o <;> simp [pushUnary, happly]
  | @binary op token left right hop harity _ _ ihl ihr =>
    rw [postorder_binary] at hevaluable ⊢
    rw [List.foldlM_append, List.foldlM_append,
      ihl (fun other hother => hevaluable other (by simp [hother]))]
    simp only [valueIn, List.foldlM_cons, List.foldlM_nil, push_of_binary hop harity]
    cases left.valueIn bindings with
    | error e => rfl
    | ok l =>
      rw [map_ok, ok_bind, ihr (fun other hother => hevaluable other (by simp [hother]))]
      cases right.valueIn bindings with
      | error e => rfl
      | ok r => cases happly : Operator.applyBinary? token.symbol l r <;> simp [pushBinary, happly]

/-- The postfix order of a tree is evaluated to the value of the tree, errors included. -/
theorem Sound.evaluate_postorder (h : tree.Sound)
    (hevaluable : ∀ token ∈ tree.postorder, token.isEvaluable = true) :
    (Postfix.mk tree.postorder).evaluate bindings = tree.valueIn bindings := by
  rw [evaluate, h.foldlM_push hevaluable]
  cases tree.valueIn bindings <;> rfl

/-- The unary operator of a token that can be evaluated computes something. -/
theorem exists_applyUnary?_symbol (hop : token.operator? = some op) (harity : op.arity = .unary)
    (hevaluable : token.isEvaluable = true) (o : Float) :
    ∃ value, Operator.applyUnary? token.symbol o = some value := by
  obtain ⟨symbol, rfl | rfl⟩ := exists_of_operator?_unary hop harity
  all_goals
    obtain ⟨known, hknown⟩ := Option.isSome_iff_exists.mp hevaluable
    exact Operator.exists_applyUnary? hknown o

/-- The binary operator of a token computes something. -/
theorem exists_applyBinary?_symbol (hop : token.operator? = some op) (harity : op.arity = .binary)
    (l r : Float) : ∃ value, Operator.applyBinary? token.symbol l r = some value := by
  obtain ⟨symbol, rfl, hfind⟩ := exists_of_operator?_binary hop harity
  exact Operator.exists_applyBinary? hfind l r

/-- A tree whose tokens can be evaluated has a value if its names have. -/
theorem Sound.exists_valueIn (h : tree.Sound)
    (hevaluable : ∀ token ∈ tree.postorder, token.isEvaluable = true)
    (hbound : BindsAll bindings tree.postorder) : ∃ value, tree.valueIn bindings = .ok value := by
  induction h with
  | @leaf token hop =>
    have htoken := hevaluable token (List.mem_singleton_self token)
    have hname := hbound token (List.mem_singleton_self token)
    cases token with
    | number value => exact ⟨value, rfl⟩
    | argument name | constant name =>
      obtain ⟨value, hvalue⟩ := hname name rfl
      exact ⟨value, by rw [valueIn, Bindings.valueOf, hvalue]⟩
    | unary symbol | binary symbol | call symbol => simp_all [isEvaluable, operator?]
    | _ => cases htoken
  | @unary op token operand hop harity _ ih =>
    rw [postorder_unary] at hevaluable hbound
    obtain ⟨o, ho⟩ := ih (fun other hother => hevaluable other (by simp [hother]))
      (fun other hother => hbound other (by simp [hother]))
    obtain ⟨value, hvalue⟩ :=
      exists_applyUnary?_symbol hop harity (hevaluable token (by simp)) o
    exact ⟨value, by rw [valueIn, ho, ok_bind, hvalue]⟩
  | @binary op token left right hop harity _ _ ihl ihr =>
    rw [postorder_binary] at hevaluable hbound
    obtain ⟨l, hl⟩ := ihl (fun other hother => hevaluable other (by simp [hother]))
      (fun other hother => hbound other (by simp [hother]))
    obtain ⟨r, hr⟩ := ihr (fun other hother => hevaluable other (by simp [hother]))
      (fun other hother => hbound other (by simp [hother]))
    obtain ⟨value, hvalue⟩ := exists_applyBinary?_symbol hop harity l r
    exact ⟨value, by rw [valueIn, hl, ok_bind, hr, ok_bind, hvalue]⟩

end OperatorTree

namespace Postfix

open Token OperatorTree

variable {bindings : Bindings} {tokens : List Token} {expression : Postfix}

/-- What an expression that is no tree is evaluated to: the first token that lacks
operands is reported, or else the number of values that are left. -/
inductive Fails (tokens : List Token) : Except CalculationError Float → Prop where
  | missingOperands {before : List Token} {token : Token} : IsFirstLacking tokens before token →
      Fails tokens (.error (.missingOperands token.symbol))
  | leftoverValues {count : Nat} :
      (∀ before token after, tokens = before ++ token :: after → ¬LacksOperands before token) →
      count ≠ 1 → count + tokens.countP isBinary = tokens.countP isOperand →
      Fails tokens (.error (.leftoverValues count))

/-- The evaluation of tokens with their names bound gives a value, or it fails for
their counts. -/
theorem evaluate_ok_or_fails (hevaluable : ∀ token ∈ tokens, token.isEvaluable = true)
    (hbound : BindsAll bindings tokens) :
    (∃ value, (Postfix.mk tokens).evaluate bindings = .ok value) ∨
      Fails tokens ((Postfix.mk tokens).evaluate bindings) := by
  unfold evaluate
  cases hrun : tokens.foldlM (push bindings) [] with
  | error e =>
    obtain ⟨before, token, hfirst, rfl⟩ := exists_isFirstLacking hevaluable hbound hrun
    exact .inr (.missingOperands hfirst)
  | ok values =>
    have hlength := length_of_foldlM_push hevaluable hrun
    have hnone := not_lacksOperands_of_foldlM_push hevaluable hbound hrun
    match values with
    | [value] => exact .inl ⟨value, rfl⟩
    | [] => exact .inr (.leftoverValues hnone (by simp) hlength)
    | first :: second :: values => exact .inr (.leftoverValues hnone (by simp) hlength)

/-- An expression of operands and known operators whose names are bound is a tree
exactly if it has a value, which is that of the tree. Else it is written as its
symbols, and it fails for the counts of its tokens. -/
theorem evaluate_follows_tree
    (hevaluable : ∀ token ∈ expression.tokens, token.isEvaluable = true)
    (hbound : BindsAll bindings expression.tokens) :
    ((∃ tree, expression.tree? = some tree) ↔ ∃ value, expression.evaluate bindings = .ok value) ∧
      (∀ tree, expression.tree? = some tree →
        expression.evaluate bindings = tree.valueIn bindings) ∧
      (expression.tree? = none → expression.toText = " ".intercalate expression.symbols ∧
        Fails expression.tokens (expression.evaluate bindings)) := by
  have hvalue (tree : OperatorTree) (htree : expression.tree? = some tree) :
      expression.evaluate bindings = tree.valueIn bindings ∧
        ∃ value, tree.valueIn bindings = .ok value := by
    obtain ⟨hsound, rfl⟩ := eq_postorder_of_tree? htree
    exact ⟨hsound.evaluate_postorder hevaluable, hsound.exists_valueIn hevaluable hbound⟩
  have htree : (∃ tree, expression.tree? = some tree) ↔
      ∃ value, expression.evaluate bindings = .ok value := by
    constructor
    · rintro ⟨tree, htree⟩
      obtain ⟨hevaluate, value, hok⟩ := hvalue tree htree
      exact ⟨value, hevaluate.trans hok⟩
    · rintro ⟨value, hok⟩
      obtain ⟨tree, htree, -⟩ := evaluate_eq_ok_iff.mp hok
      exact ⟨tree, htree⟩
  refine ⟨htree, fun tree hsome => (hvalue tree hsome).1, fun hnone => ⟨?_, ?_⟩⟩
  · rw [toText, hnone]
  · refine (evaluate_ok_or_fails hevaluable hbound).resolve_left fun hok => ?_
    obtain ⟨tree, hsome⟩ := htree.mpr hok
    rw [hnone] at hsome
    cases hsome

/-- The postfix order of `2 √ + π`, in which the sum lacks an operand although there
are as many as in a tree. -/
def lackingSum : Postfix := ⟨[.number 2, .unary "√", .binary "+", .constant "π"]⟩

/-- A sum that lacks an operand, after a root that has one: there is no tree, its symbols
are joined, and the sum is reported. -/
theorem evaluate_follows_tree_lackingSum :
    (∀ token ∈ lackingSum.tokens, token.isEvaluable = true) ∧
      BindsAll .constants lackingSum.tokens ∧ lackingSum.tree? = none ∧
      lackingSum.toText = "2 √ + π" ∧
      Fails lackingSum.tokens (lackingSum.evaluate .constants) := by
  have hevaluable : ∀ token ∈ lackingSum.tokens, token.isEvaluable = true := by
    decide
  have hbound : BindsAll .constants lackingSum.tokens := by
    intro token hmem name hname
    simp only [lackingSum, List.mem_cons, List.not_mem_nil, or_false] at hmem
    rcases hmem with rfl | rfl | rfl | rfl <;> cases hname
    exact ⟨piValue, by rfl⟩
  have hnone : lackingSum.tree? = none := rfl
  obtain ⟨htext, hfails⟩ := (evaluate_follows_tree hevaluable hbound).2.2 hnone
  exact ⟨hevaluable, hbound, hnone, htext.trans (by decide +kernel), hfails⟩

end Postfix

end FormulaCalculator
