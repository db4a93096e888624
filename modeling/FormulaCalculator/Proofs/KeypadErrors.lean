import FormulaCalculator.Calculator
import FormulaCalculator.Proofs.OperandCount

/-!
# The errors of the keypad

The keys go through three stages, and each of them has its own errors. Terms that
make no tokens are reported first. Tokens of keys all have a place in an
expression, so only their parentheses can keep them from a postfix order. And they
can all be evaluated, so at the end there is nothing wrong but a name without a
value, an operator that lacks operands, or a number of values that is not one.
-/

set_option autoImplicit false

namespace FormulaCalculator

open Token

namespace Keypad

variable {run term : String} {terms : List String} {previous : Option Token} {token : Token}
  {ts : List Token}

/-- A token that the keys can make. A function has a key as a unary operator. -/
inductive Makes : Token → Prop where
  | number {value : Float} : Makes (.number value)
  | argument : Makes (.argument argumentName)
  | constant {name : String} : name ∈ constantNames → Makes (.constant name)
  | unary {symbol : String} {op : Operator} : Operator.find? symbol .unary = some op →
      Makes (.unary symbol)
  | binary {symbol : String} {op : Operator} : Operator.find? symbol .binary = some op →
      Makes (.binary symbol)
  | opening : Makes .opening
  | closing : Makes .closing

/-- What the keys make can be evaluated, parentheses apart. -/
theorem Makes.isEvaluable (h : Makes token) (hparenthesis : token.isParenthesis = false) :
    token.isEvaluable = true := by
  cases h with
  | number | argument | constant _ => rfl
  | unary hfind | binary hfind => exact Option.isSome_iff_exists.mpr ⟨_, hfind⟩
  | opening | closing => cases hparenthesis

/-- What the keys make has a place in an expression. -/
theorem Makes.isKnown (h : Makes token) : token.isKnown = true := by
  cases hparenthesis : token.isParenthesis with
  | false => exact isKnown_of_isEvaluable (h.isEvaluable hparenthesis)
  | true => exact isKnown_of_isParenthesis hparenthesis

/-- A run of numeric terms makes a number, or nothing if it is empty. -/
theorem makes_of_pendingNumber (h : pendingNumber run = .ok ts) : ∀ token ∈ ts, Makes token := by
  unfold pendingNumber numberOf at h
  split at h
  · cases h
    simp
  · split at h
    · cases h
    · split at h
      · cases h
        simpa using Makes.number
      · cases h

/-- A symbol of the table makes a unary or a binary operator of the table. -/
theorem makes_of_ofSymbol? (h : Token.ofSymbol? term previous = some token) : Makes token := by
  unfold Token.ofSymbol? at h
  split at h
  · next hunary hbinary =>
    split at h
    · cases h
      exact .unary hunary
    · cases h
      exact .binary hbinary
  · next hunary _ =>
    cases h
    exact .unary hunary
  · next hbinary =>
    cases h
    exact .binary hbinary
  · cases h

/-- Each term that is not numeric makes a token of its own kind. -/
theorem makes_of_tokenOf (h : tokenOf term previous = .ok token) : Makes token := by
  unfold tokenOf at h
  split at h
  · cases h
    exact .opening
  · split at h
    · cases h
      exact .closing
    · split at h
      · next hargument =>
        cases h
        rw [hargument]
        exact .argument
      · split at h
        · next hconstant =>
          cases h
          exact .constant (by simpa using hconstant)
        · split at h
          · next hsymbol =>
            cases h
            exact makes_of_ofSymbol? hsymbol
          · cases h

/-- All tokens of a list of terms are such that keys can make, by induction on the
terms. -/
theorem makes_of_tokensAfter (h : tokensAfter previous run terms = .ok ts) :
    ∀ token ∈ ts, Makes token := by
  induction terms generalizing previous run ts with
  | nil => exact makes_of_pendingNumber h
  | cons term terms ih =>
    rw [tokensAfter] at h
    split at h
    · exact ih h
    · simp only [bind_eq_ok_iff] at h
      obtain ⟨number, hnumber, token, htoken, rest, hrest, heq⟩ := h
      cases heq
      refine List.forall_mem_append.mpr ⟨makes_of_pendingNumber hnumber, ?_⟩
      exact List.forall_mem_cons.mpr ⟨makes_of_tokenOf htoken, ih hrest⟩

/-- All tokens that the keys give are such that keys can make. -/
theorem makes_of_tokens (h : tokens terms = .ok ts) : ∀ token ∈ ts, Makes token :=
  makes_of_tokensAfter h

/-- So no token of the keys can be a bad one when they are put in order. -/
theorem isKnown_of_tokens (h : tokens terms = .ok ts) : ∀ token ∈ ts, token.isKnown = true :=
  fun token htoken => (makes_of_tokens h token htoken).isKnown

end Keypad

namespace Calculator

variable {calculator : Calculator} {terms : List String} {ts : List Token}

/-- From the tokens on, a calculation is to put them in order and to evaluate that. -/
theorem calculate_of_tokens (h : Keypad.tokens terms = .ok ts) :
    calculator.calculate terms =
      Postfix.ofTokens ts >>= fun expression => expression.evaluate calculator.bindings := by
  rw [calculate, h, ok_bind]

/-- What the tokens of the keys say about a calculation, whatever names are bound. -/
theorem calculate_outcome (h : Keypad.tokens terms = .ok ts) :
    (Balanced ts ∧ ∃ expression, Postfix.ofTokens ts = .ok expression ∧
      calculator.calculate terms = expression.evaluate calculator.bindings ∧
      Postfix.Outcome calculator.bindings ts (calculator.calculate terms)) ∨
    (¬Balanced ts ∧ Postfix.ofTokens ts = .error .parenthesisMismatch ∧
      calculator.calculate terms = .error .parenthesisMismatch) := by
  rw [calculate_of_tokens h]
  have hmakes := Keypad.makes_of_tokens h
  by_cases hbalanced : Balanced ts
  · obtain ⟨expression, hexpression, houtcome⟩ :=
      @Postfix.exists_ofTokens_outcome calculator.bindings ts hbalanced
        fun token htoken => (hmakes token htoken).isEvaluable
    refine .inl ⟨hbalanced, expression, hexpression, ?_⟩
    rw [hexpression, ok_bind]
    exact ⟨rfl, houtcome⟩
  · obtain ⟨-, herror⟩ := (Postfix.ofTokens_cases (Keypad.isKnown_of_tokens h)).resolve_left
      fun hyes => hbalanced hyes.1
    refine .inr ⟨hbalanced, herror, ?_⟩
    rw [herror, error_bind]

/-- A name that the keys make and that has no value is that of the variable. -/
theorem eq_argumentName_of_makes {token : Token} {name : String} (hmakes : Keypad.Makes token)
    (hname : token.valueName? = some name) (hget : calculator.bindings.get? name = none)
    (hconstants : ∀ name ∈ Keypad.constantNames, (calculator.bindings.get? name).isSome = true) :
    token = .argument argumentName ∧ name = argumentName := by
  cases hmakes with
  | argument =>
    cases hname
    exact ⟨rfl, rfl⟩
  | constant hmem =>
    cases hname
    have hsome := hconstants name hmem
    rw [hget] at hsome
    cases hsome
  | number | unary _ | binary _ | opening | closing => cases hname

/-- How a calculation on a keypad ends. Terms that make no tokens are reported
first, then parentheses that do not match. Else the number of values that are left is
that of the operands without that of the binary operators, and there is a value if it
is one; or the variable has no value, or an operator lacks operands. In particular no
token is ever called bad after the keys have made it. -/
theorem calculate_classified (calculator : Calculator) (terms : List String)
    (hconstants : ∀ name ∈ Keypad.constantNames,
      (calculator.bindings.get? name).isSome = true) :
    (∀ error, Keypad.tokens terms = .error error →
      calculator.calculate terms = .error error) ∧
    ∀ ts, Keypad.tokens terms = .ok ts →
      (¬Balanced ts → calculator.calculate terms = .error .parenthesisMismatch) ∧
      (Balanced ts →
        (∃ value, calculator.calculate terms = .ok value ∧
          ts.countP isOperand = 1 + ts.countP isBinary) ∨
        (calculator.calculate terms = .error (.unknownName argumentName) ∧
          .argument argumentName ∈ ts ∧ calculator.bindings.get? argumentName = none) ∨
        (∃ token ∈ ts, (∃ op, token.operator? = some op) ∧
          calculator.calculate terms = .error (.missingOperands token.symbol)) ∨
        ∃ count, count ≠ 1 ∧ ts.countP isOperand = count + ts.countP isBinary ∧
          calculator.calculate terms = .error (.leftoverValues count)) ∧
      (∀ text, Postfix.ofTokens ts ≠ .error (.badToken text)) ∧
      ∀ expression text, Postfix.ofTokens ts = .ok expression →
        expression.evaluate calculator.bindings ≠ .error (.badToken text) := by
  refine ⟨fun error herror => ?_, fun ts hts => ?_⟩
  · rw [calculate, herror, error_bind]
  · rcases @calculate_outcome calculator terms ts hts with
      ⟨hbalanced, expression, hexpression, hcalculate, houtcome⟩ | ⟨hnot, hexpression, hcalculate⟩
    · refine ⟨fun hnot => absurd hbalanced hnot, fun _ => ?_, by simp [hexpression], ?_⟩
      · generalize calculator.calculate terms = result at houtcome
        cases houtcome with
        | @value value hcount => exact .inl ⟨value, rfl, hcount⟩
        | unknownName hmem hname hget =>
          obtain ⟨rfl, rfl⟩ := eq_argumentName_of_makes (Keypad.makes_of_tokens hts _ hmem)
            hname hget hconstants
          exact .inr (.inl ⟨rfl, hmem, hget⟩)
        | missingOperands hmem hop => exact .inr (.inr (.inl ⟨_, hmem, ⟨_, hop⟩, rfl⟩))
        | leftoverValues hne hcount => exact .inr (.inr (.inr ⟨_, hne, hcount, rfl⟩))
      · intro other text hother
        cases hexpression.symm.trans hother
        rw [← hcalculate]
        exact houtcome.ne_badToken
    · refine ⟨fun _ => hcalculate, fun hbalanced => absurd hbalanced hnot, ?_, ?_⟩
      · simp [hexpression]
      · simp [hexpression]

/-- A group that is left open on a calculator that knows its constants, and a group that
is closed behind an operand with no operator between the two. -/
theorem calculate_classified_openGroup :
    (∀ name ∈ Keypad.constantNames,
      (({} : Calculator).bindings.get? name).isSome = true) ∧
    (Keypad.tokens ["√", "(", "x"] = .ok [.unary "√", .opening, .argument "x"] ∧
      ¬Balanced [.unary "√", .opening, .argument "x"] ∧
      ({} : Calculator).calculate ["√", "(", "x"] = .error .parenthesisMismatch) ∧
    (Keypad.tokens ["π", "(", "e", ")"] =
        .ok [.constant "π", .opening, .constant "e", .closing] ∧
      Balanced [.constant "π", .opening, .constant "e", .closing] ∧
      ({} : Calculator).calculate ["π", "(", "e", ")"] = .error (.leftoverValues 2)) := by
  have hconstants : ∀ name ∈ Keypad.constantNames,
      (({} : Calculator).bindings.get? name).isSome = true := by decide
  have htokens : Keypad.tokens ["√", "(", "x"] = .ok [.unary "√", .opening, .argument "x"] := by
    rfl
  have hopen : ¬Balanced [.unary "√", .opening, .argument "x"] := by decide
  have hmismatch := ((calculate_classified {} _ hconstants).2 _ htokens).1 hopen
  have hclosed : Keypad.tokens ["π", "(", "e", ")"] =
      .ok [.constant "π", .opening, .constant "e", .closing] := by rfl
  have hbalanced : Balanced [.constant "π", .opening, .constant "e", .closing] := by decide
  refine ⟨hconstants, ⟨htokens, hopen, hmismatch⟩, hclosed, hbalanced, ?_⟩
  obtain ⟨-, houtcome, -, -⟩ := (calculate_classified {} _ hconstants).2 _ hclosed
  rcases houtcome hbalanced with
    ⟨value, -, hcount⟩ | ⟨-, hargument, -⟩ | ⟨token, htoken, ⟨op, hop⟩, -⟩ | ⟨count, -, hcount, h⟩
  · exact absurd hcount (by decide)
  · exact absurd hargument (by decide)
  · have hnone : ∀ token ∈ [Token.constant "π", .opening, .constant "e", .closing],
        token.operator? = none := by decide
    rw [hnone token htoken] at hop
    cases hop
  · have hleft : 2 = count := hcount
    rw [h, ← hleft]

end Calculator

end FormulaCalculator
