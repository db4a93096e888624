import FormulaCalculator.Postfix.Evaluate
import FormulaCalculator.Proofs.ShuntingYard

/-!
# Functions as keys and functions as calls

A function is a unary operator on a keypad and a call in a typed expression. The
two tokens are not the same, but a function of the table is treated alike as either:
it waits as long and goes out with the same others, it has the same symbol and it
computes the same. So taking keys for calls before an expression is brought into
postfix order is the same as taking them after, and it changes no value.
-/

set_option autoImplicit false

namespace FormulaCalculator

namespace Token

/-- The token that a key makes where a call is typed. -/
def asKey : Token → Token
  | .call name => .unary name
  | token => token

/-- Whether a token is no call of a function that the table does not know. -/
def isListed : Token → Bool
  | .call name => (Operator.find? name .unary).isSome
  | _ => true

variable {token : Token}

/-- The key for a call has the name of the function on it. -/
@[simp]
theorem symbol_asKey : token.asKey.symbol = token.symbol := by
  cases token <;> rfl

/-- No key but that of the parenthesis makes an opening parenthesis. -/
theorem asKey_eq_opening_iff : token.asKey = .opening ↔ token = .opening := by
  cases token <;> simp [asKey]

/-- The key for a call is the operator that the call is, if the table knows the
function. -/
theorem operator?_asKey (h : token.isListed = true) : token.asKey.operator? = token.operator? := by
  cases token with
  | call name =>
    obtain ⟨op, hop⟩ := Option.isSome_iff_exists.mp h
    simp [asKey, operator?, hop]
  | _ => rfl

end Token

namespace Postfix

open Token

variable {waiting tokens : List Token} {token : Token} {s : Step} {bindings : Bindings}

/-- What a step gives, with keys for calls. -/
def Step.asKeys (s : Step) : Step := ⟨s.out.map asKey, s.waiting.map asKey⟩

/-- The expression with keys for calls. -/
def asKeys (expression : Postfix) : Postfix := ⟨expression.tokens.map asKey⟩

/-- What goes before an operator is decided on top of what waits: the top goes out if it
does, or it is no operator and bad, or everything stays. -/
theorem yieldTo_cons_of_ne (op : Operator) (h : token ≠ .opening) :
    yieldTo op (token :: waiting) =
      match token.operator? with
      | none => .error (.badToken token.symbol)
      | some other =>
        if other.goesBefore op then (yieldTo op waiting).map (Step.after token)
        else .ok ⟨[], token :: waiting⟩ := by
  cases token with
  | opening => exact absurd rfl h
  | _ => rfl

/-- The same tokens go before an operator, whether calls are keyed or typed. -/
theorem yieldTo_asKey (op : Operator) (h : ∀ token ∈ waiting, token.isListed = true) :
    yieldTo op (waiting.map asKey) = (yieldTo op waiting).map Step.asKeys := by
  induction waiting with
  | nil => rfl
  | cons top waiting ih =>
    obtain ⟨htop, hwaiting⟩ := List.forall_mem_cons.mp h
    by_cases hopening : top = .opening
    · subst hopening
      rfl
    · have hopening' : top.asKey ≠ .opening := mt asKey_eq_opening_iff.mp hopening
      rw [List.map_cons, yieldTo_cons_of_ne op hopening', yieldTo_cons_of_ne op hopening,
        operator?_asKey htop, symbol_asKey, ih hwaiting]
      cases top.operator? with
      | none => rfl
      | some other =>
        dsimp only
        split
        · cases yieldTo op waiting <;> rfl
        · rfl

/-- A closing parenthesis brings out the same tokens, whether calls are keyed or typed. -/
theorem closeGroup_asKey :
    closeGroup (waiting.map asKey) = (closeGroup waiting).map Step.asKeys := by
  induction waiting with
  | nil => rfl
  | cons top waiting ih =>
    by_cases hopening : top = .opening
    · subst hopening
      rfl
    · have hopening' : top.asKey ≠ .opening := mt asKey_eq_opening_iff.mp hopening
      rw [List.map_cons, closeGroup_cons_of_ne hopening', closeGroup_cons_of_ne hopening, ih]
      cases closeGroup waiting <;> rfl

/-- A group is completed by the same operator in front of it, whether that is keyed or
typed. -/
theorem completeGroup_asKeys : completeGroup s.asKeys = (completeGroup s).asKeys := by
  obtain ⟨out, waiting⟩ := s
  cases waiting with
  | nil => rfl
  | cons top waiting => cases top <;> simp [completeGroup, Step.asKeys, asKey]

/-- The same tokens are left at the end, whether calls are keyed or typed. -/
theorem flush_asKey : flush (waiting.map asKey) = (flush waiting).map (List.map asKey) := by
  induction waiting with
  | nil => rfl
  | cons top waiting ih =>
    by_cases hopening : top = .opening
    · subst hopening
      rfl
    · have hopening' : top.asKey ≠ .opening := mt asKey_eq_opening_iff.mp hopening
      rw [List.map_cons, flush_cons_of_ne hopening', flush_cons_of_ne hopening, ih]
      cases flush waiting <;> rfl

/-- Each token does the same, whether calls are keyed or typed. -/
theorem step_asKey (h : ∀ token ∈ waiting, token.isListed = true) :
    step (waiting.map asKey) token.asKey = (step waiting token).map Step.asKeys := by
  cases token with
  | binary symbol =>
    simp only [step, asKey]
    cases (Token.binary symbol).operator? with
    | none => rfl
    | some op =>
      dsimp only
      rw [yieldTo_asKey op h]
      cases yieldTo op waiting <;> rfl
  | closing =>
    simp only [step, asKey]
    rw [closeGroup_asKey]
    cases closeGroup waiting with
    | error _ => rfl
    | ok s => exact congrArg Except.ok completeGroup_asKeys
  | _ => rfl

/-- The postfix order is the same, whether calls are keyed or typed. -/
theorem arrange_asKey (hwaiting : ∀ token ∈ waiting, token.isListed = true)
    (htokens : ∀ token ∈ tokens, token.isListed = true) :
    arrange (waiting.map asKey) (tokens.map asKey) =
      (arrange waiting tokens).map (List.map asKey) := by
  induction tokens generalizing waiting with
  | nil => exact flush_asKey
  | cons token tokens ih =>
    obtain ⟨htoken, hrest⟩ := List.forall_mem_cons.mp htokens
    rw [List.map_cons, arrange, arrange, step_asKey hwaiting]
    cases hstep : step waiting token with
    | error _ => rfl
    | ok s =>
      have hall : ∀ other ∈ token :: waiting, other.isListed = true :=
        List.forall_mem_cons.mpr ⟨htoken, hwaiting⟩
      have hnext : ∀ other ∈ s.waiting, other.isListed = true :=
        fun other hother =>
          hall other (List.mem_cons.mpr (mem_of_step hstep other
            (List.mem_append_right s.out hother)).symm)
      rw [map_ok, ok_bind, ok_bind, Step.asKeys, ih hnext hrest]
      cases arrange s.waiting tokens with
      | error _ => rfl
      | ok out => simp

/-- The postfix order of an expression with keys for calls. -/
theorem ofTokens_asKey (h : ∀ token ∈ tokens, token.isListed = true) :
    ofTokens (tokens.map asKey) = (ofTokens tokens).map asKeys := by
  have harrange := @arrange_asKey [] tokens (by simp) h
  rw [List.map_nil] at harrange
  rw [ofTokens, ofTokens, harrange]
  cases arrange [] tokens <;> rfl

/-- An expression is written with the same symbols, whether calls are keyed or typed. -/
theorem symbols_asKeys (expression : Postfix) : expression.asKeys.symbols = expression.symbols := by
  simp [symbols, asKeys]

/-- A call is evaluated like its key. -/
theorem push_asKey (values : List Float) :
    push bindings values token.asKey = push bindings values token := by
  cases token <;> rfl

/-- Keys for calls change nothing of a value, whatever names are bound. -/
theorem evaluate_asKeys (expression : Postfix) (bindings : Bindings) :
    expression.asKeys.evaluate bindings = expression.evaluate bindings := by
  simp [evaluate, asKeys, List.foldlM_map, push_asKey]

end Postfix

end FormulaCalculator
