import FormulaCalculator.CalculationError
import FormulaCalculator.Operator
import FormulaCalculator.Token.Lexer

/-!
# Expressions in postfix order

In postfix order every operator stands behind its operands and parentheses are
not needed. Tokens in the usual order are brought into postfix order from left
to right, with a stack of tokens that wait: operands go out at once, operators
wait until an operator that binds less, a closing parenthesis or the end of the
input calls for them.

Each step gives the tokens that go out and the stack that is left, so that the
whole output is the concatenation of what the steps give.
-/

set_option autoImplicit false

namespace FormulaCalculator

/-- An expression in postfix order. Nothing is promised about its tokens. -/
structure Postfix where
  tokens : List Token
deriving DecidableEq, Repr

namespace Postfix

/-- The symbols of the tokens, in order. -/
def symbols (expression : Postfix) : List String :=
  expression.tokens.map Token.symbol

/-- What a step gives: the tokens that go out and the tokens that still wait,
the last one first. -/
structure Step where
  out : List Token
  waiting : List Token
deriving DecidableEq, Repr

/-- Puts a token in front of what a step gives out. -/
def Step.after (token : Token) (step : Step) : Step :=
  { step with out := token :: step.out }

/-- Gives out the operators that take their operands before a binary operator. -/
def yieldTo (op : Operator) : List Token → Except CalculationError Step
  | [] => .ok ⟨[], []⟩
  | .opening :: waiting => .ok ⟨[], .opening :: waiting⟩
  | top :: waiting =>
    match top.operator? with
    | none => .error (.badToken top.symbol)
    | some other =>
      if other.goesBefore op then (yieldTo op waiting).map (Step.after top)
      else .ok ⟨[], top :: waiting⟩

/-- A binary operator takes nothing away from what waits and what goes out. -/
theorem out_append_waiting_of_yieldTo {op : Operator} {waiting : List Token} {s : Step}
    (h : yieldTo op waiting = .ok s) : s.out ++ s.waiting = waiting := by
  induction waiting generalizing s with
  | nil => cases h; rfl
  | cons top rest ih =>
    unfold yieldTo at h
    split at h
    · next heq => cases heq
    · next heq => cases heq; cases h; rfl
    · next heq =>
      cases heq
      split at h
      · cases h
      · split at h
        · cases hrest : yieldTo op rest with
          | error e => rw [hrest] at h; cases h
          | ok t =>
            rw [hrest] at h
            cases h
            exact congrArg (top :: ·) (ih hrest)
        · cases h; rfl

/-- Gives out everything down to the nearest opening parenthesis, which goes. -/
def closeGroup : List Token → Except CalculationError Step
  | [] => .error .parenthesisMismatch
  | .opening :: waiting => .ok ⟨[], waiting⟩
  | top :: waiting => (closeGroup waiting).map (Step.after top)

/-- A closing parenthesis takes what waits on top to the output and looks further down for
the one that opens the group. -/
theorem closeGroup_cons_of_ne {top : Token} {waiting : List Token} (h : top ≠ .opening) :
    closeGroup (top :: waiting) = (closeGroup waiting).map (Step.after top) := by
  cases top with
  | opening => exact absurd rfl h
  | _ => rfl

/-- A closed group gives out what waits above the nearest opening parenthesis. -/
theorem closeGroup_eq_ok_iff {waiting : List Token} {s : Step} :
    closeGroup waiting = .ok s ↔
      waiting = s.out ++ .opening :: s.waiting ∧ .opening ∉ s.out := by
  induction waiting generalizing s with
  | nil => simp [closeGroup]
  | cons top rest ih =>
    by_cases htop : top = .opening
    · subst htop
      obtain ⟨out, waiting⟩ := s
      cases out with
      | nil => simp [closeGroup]
      | cons first out =>
        simp only [closeGroup, Except.ok.injEq, Step.mk.injEq, List.cons_append, List.cons.injEq,
          List.mem_cons, not_or]
        constructor
        · rintro ⟨h, -⟩
          cases h
        · rintro ⟨⟨h, -⟩, hne, -⟩
          exact absurd h hne
    -- What is on top goes out, and the parenthesis is the nearest one below it.
    · rw [closeGroup_cons_of_ne htop]
      constructor
      · intro h
        cases hrest : closeGroup rest with
        | error e => rw [hrest] at h; cases h
        | ok t =>
          rw [hrest] at h
          cases h
          obtain ⟨hsplit, hnot⟩ := ih.1 hrest
          refine ⟨congrArg (top :: ·) hsplit, ?_⟩
          simp [Step.after, hnot, Ne.symm htop]
      · rintro ⟨hsplit, hnot⟩
        obtain ⟨out, waiting⟩ := s
        cases out with
        | nil =>
          cases hsplit
          exact absurd rfl htop
        | cons first out =>
          simp only [List.cons_append, List.cons.injEq] at hsplit
          obtain ⟨rfl, hsplit⟩ := hsplit
          have hrest : closeGroup rest = .ok ⟨out, waiting⟩ :=
            ih.2 ⟨hsplit, fun hmem => hnot (List.mem_cons_of_mem _ hmem)⟩
          rw [hrest]
          rfl

/-- A unary operator or a call that waits for the group that was just closed is
complete and goes out. -/
def completeGroup (step : Step) : Step :=
  match step.waiting with
  | .unary symbol :: waiting => ⟨step.out ++ [.unary symbol], waiting⟩
  | .call name :: waiting => ⟨step.out ++ [.call name], waiting⟩
  | _ => step

/-- A completed operator goes from what waits to what goes out. -/
theorem out_append_waiting_completeGroup (s : Step) :
    (completeGroup s).out ++ (completeGroup s).waiting = s.out ++ s.waiting := by
  unfold completeGroup
  split
  · next heq => rw [heq, List.append_assoc, List.singleton_append]
  · next heq => rw [heq, List.append_assoc, List.singleton_append]
  · rfl

/-- What one token does to the tokens that wait. -/
def step (waiting : List Token) : Token → Except CalculationError Step
  | .number value => .ok ⟨[.number value], waiting⟩
  | .argument name => .ok ⟨[.argument name], waiting⟩
  | .constant name => .ok ⟨[.constant name], waiting⟩
  | .opening => .ok ⟨[], .opening :: waiting⟩
  | .unary symbol => .ok ⟨[], .unary symbol :: waiting⟩
  | .call name => .ok ⟨[], .call name :: waiting⟩
  | .binary symbol =>
    match (Token.binary symbol).operator? with
    | none => .error (.badToken symbol)
    | some op => (yieldTo op waiting).map fun s => ⟨s.out, .binary symbol :: s.waiting⟩
  | .closing => (closeGroup waiting).map completeGroup
  | .stray lexeme => .error (.badToken lexeme)

/-- Gives out all that waits at the end. A parenthesis among it was not closed. -/
def flush : List Token → Except CalculationError (List Token)
  | [] => .ok []
  | .opening :: _ => .error .parenthesisMismatch
  | top :: waiting => (flush waiting).map (top :: ·)

/-- At the end what waits on top goes to the output first, and then all below it. -/
theorem flush_cons_of_ne {top : Token} {waiting : List Token} (h : top ≠ .opening) :
    flush (top :: waiting) = (flush waiting).map (top :: ·) := by
  cases top with
  | opening => exact absurd rfl h
  | _ => rfl

/-- What waits at the end goes out as it is, if no parenthesis is left open. -/
theorem flush_eq_ok_iff {waiting out : List Token} :
    flush waiting = .ok out ↔ out = waiting ∧ .opening ∉ waiting := by
  induction waiting generalizing out with
  | nil => simp [flush, eq_comm]
  | cons top rest ih =>
    by_cases htop : top = .opening
    · subst htop
      simp [flush]
    · rw [flush_cons_of_ne htop]
      constructor
      · intro h
        cases hrest : flush rest with
        | error e => rw [hrest] at h; cases h
        | ok out' =>
          rw [hrest] at h
          cases h
          obtain ⟨rfl, hnot⟩ := ih.1 hrest
          exact ⟨rfl, by simp [hnot, Ne.symm htop]⟩
      · rintro ⟨rfl, hnot⟩
        have hrest : flush rest = .ok rest :=
          ih.2 ⟨rfl, fun hmem => hnot (List.mem_cons_of_mem _ hmem)⟩
        rw [hrest]
        rfl

/-- Brings tokens into postfix order, on top of the tokens that wait. -/
def arrange (waiting : List Token) : List Token → Except CalculationError (List Token)
  | [] => flush waiting
  | token :: tokens => do
    let s ← step waiting token
    return s.out ++ (← arrange s.waiting tokens)

/-- The postfix order of tokens that come in the usual order. -/
def ofTokens (tokens : List Token) : Except CalculationError Postfix :=
  (arrange [] tokens).map Postfix.mk

/-- The postfix order of a typed expression such as `3 + 4*sin(x)`. -/
def ofText (text : String) : Except CalculationError Postfix :=
  ofTokens (Lexed.ofText text).tokens

end Postfix

end FormulaCalculator
