import FormulaCalculator.Proofs.FormulaGrammar
import FormulaCalculator.Proofs.Outcome
import FormulaCalculator.SyntaxTree.Reading

/-!
# The steps of reading a formula

While a formula is read, the operators of the part that was read last wait on top
of all others. They settle when a weaker operator, a closing parenthesis or the
end comes: each takes its operands, and the tree of the part is left. What waits
below them stays, because it does not go before the operators of the part.
-/

set_option autoImplicit false

namespace FormulaCalculator

namespace Reading

variable {top : Located} {op : Operator} {t u : SyntaxTree} {position n : Nat} {token : Token}
  {pending waiting waiting' : List Located} {operands operands' result : List SyntaxTree}

/-- A unary operator takes the last tree and puts its own in the place of it. -/
theorem reduce_unary (hop : top.token.operator? = some op) (harity : op.arity = .unary) :
    reduce top (t :: operands) = .ok (.unary top.token t :: operands) := by
  have hbetween : isBetween top.token = false := by simp [isBetween, hop, harity]
  unfold reduce
  rw [hbetween]
  cases operands <;> rfl

/-- A binary operator takes the last two trees, the later one on its right. -/
theorem reduce_binary (hop : top.token.operator? = some op) (harity : op.arity = .binary) :
    reduce top (u :: t :: operands) = .ok (.binary top.token t u :: operands) := by
  have hbetween : isBetween top.token = true := by simp [isBetween, hop, harity]
  unfold reduce
  rw [hbetween]

/-- The operator on top settles if it goes before the one that comes, and else nothing
settles. -/
theorem reduceBefore_cons {other : Operator} (hop : top.token.operator? = some other) :
    reduceBefore op operands (top :: waiting) =
      if other.goesBefore op then reduce top operands >>= fun rest => reduceBefore op rest waiting
      else .ok (operands, top :: waiting) := by
  rw [reduceBefore]
  simp only [hop]

/-- Nothing settles if what waits on top does not go before the operator that comes. -/
theorem reduceBefore_stays
    (h : ∀ top ∈ waiting.head?, ∀ other, top.token.operator? = some other →
      other.goesBefore op = false) :
    reduceBefore op operands waiting = .ok (operands, waiting) := by
  cases waiting with
  | nil => rfl
  | cons top waiting =>
    cases hop : top.token.operator? with
    | none =>
      rw [reduceBefore]
      simp only [hop]
    | some other =>
      rw [reduceBefore_cons hop, h top rfl other hop]
      rfl

/-- Inside a group the operator on top settles first, and then those below it. -/
theorem reduceGroup_cons (h : top.token ≠ .opening) :
    reduceGroup position operands (top :: waiting) =
      reduce top operands >>= fun rest => reduceGroup position rest waiting := by
  obtain ⟨start, token⟩ := top
  cases token with
  | opening => exact absurd rfl h
  | _ => rfl

/-- At the end the operator on top settles first, and then those below it. -/
theorem reduceAll_cons (h : top.token ≠ .opening) :
    reduceAll operands (top :: waiting) =
      reduce top operands >>= fun rest => reduceAll rest waiting := by
  obtain ⟨start, token⟩ := top
  cases token with
  | opening => exact absurd rfl h
  | _ => rfl

/-- An operator of the table is no parenthesis. -/
theorem ne_opening_of_operator? (h : top.token.operator? = some op) : top.token ≠ .opening := by
  intro heq
  rw [heq] at h
  cases h

/-- Operators at least as strong as a precedence wait, and turn the operands
into the result when they take them. -/
inductive Settles (n : Nat) : List Located → List SyntaxTree → List SyntaxTree → Prop where
  | nil {operands : List SyntaxTree} : Settles n [] operands operands
  | cons {top : Located} {op : Operator} {pending : List Located}
      {operands rest result : List SyntaxTree} :
    top.token.operator? = some op → n ≤ op.precedence → reduce top operands = .ok rest →
      Settles n pending rest result → Settles n (top :: pending) operands result

namespace Settles

/-- Operators settle one after the other, first those on top. -/
theorem append {more : List Located} {last : List SyntaxTree}
    (h : Settles n pending operands result) (hmore : Settles n more result last) :
    Settles n (pending ++ more) operands last := by
  induction h with
  | nil => exact hmore
  | cons hop hle hreduce _ ih => exact .cons hop hle hreduce (ih hmore)

/-- Operators that are at least as strong as a precedence are at least as strong as any
lower one. -/
theorem mono {m : Nat} (h : Settles n pending operands result) (hle : m ≤ n) :
    Settles m pending operands result := by
  induction h with
  | nil => exact .nil
  | cons hop hn hreduce _ ih => exact .cons hop (Nat.le_trans hle hn) hreduce ih

/-- They settle before an operator that they all go before. -/
theorem reduceBefore (h : Settles n pending operands result)
    (hbefore : ∀ other : Operator, n ≤ other.precedence → other.goesBefore op = true) :
    reduceBefore op operands (pending ++ waiting) = Reading.reduceBefore op result waiting := by
  induction h with
  | nil => rfl
  | cons hop hle hreduce _ ih =>
    rw [List.cons_append, reduceBefore_cons hop, if_pos (hbefore _ hle), hreduce]
    exact ih

/-- When a group is closed, all operators inside it settle. -/
theorem reduceGroup (h : Settles n pending operands result) :
    reduceGroup position operands (pending ++ waiting) =
      Reading.reduceGroup position result waiting := by
  induction h with
  | nil => rfl
  | cons hop _ hreduce _ ih =>
    rw [List.cons_append, reduceGroup_cons (ne_opening_of_operator? hop), hreduce]
    exact ih

/-- At the end, all operators that wait on top settle. -/
theorem reduceAll (h : Settles n pending operands result) :
    reduceAll operands (pending ++ waiting) = Reading.reduceAll result waiting := by
  induction h with
  | nil => rfl
  | cons hop _ hreduce _ ih =>
    rw [List.cons_append, reduceAll_cons (ne_opening_of_operator? hop), hreduce]
    exact ih

end Settles

/-- An operator between operands waits once those before it have settled, and its right
operand is due. -/
theorem binary_eq (hop : token.operator? = some op)
    (hreduce : reduceBefore op operands waiting = .ok (operands', waiting')) :
    binary ⟨operands, waiting, false⟩ position token =
      .ok ⟨operands', ⟨position, token⟩ :: waiting', true⟩ := by
  simp [binary, hop, hreduce]

/-- A parenthesis that closes a group without a name in front leaves the tree of the
group, and an operand has ended. -/
theorem closing_group
    (hreduce : reduceGroup position operands waiting = .ok (operands', waiting'))
    (hcall : ∀ top ∈ waiting'.head?, ∀ name, top.token ≠ .call name) :
    closing ⟨operands, waiting, false⟩ position = .ok ⟨operands', waiting', false⟩ := by
  unfold closing
  simp only [Bool.false_eq_true, if_false, hreduce, ok_bind]
  split
  · next start name rest => exact absurd rfl (hcall ⟨start, .call name⟩ rfl name)
  · rfl

/-- A parenthesis that closes a call puts the name in front of the tree of the argument,
and an operand has ended. -/
theorem closing_call {start : Nat} {name : String}
    (hreduce : reduceGroup position operands waiting =
      .ok (t :: operands', ⟨start, .call name⟩ :: waiting')) :
    closing ⟨operands, waiting, false⟩ position =
      .ok ⟨.unary (.call name) t :: operands', waiting', false⟩ := by
  obtain ⟨op, hop, harity⟩ := Token.exists_operator?_call name
  have hcall : reduce ⟨start, .call name⟩ (t :: operands') =
      .ok (.unary (.call name) t :: operands') := reduce_unary hop harity
  unfold closing
  simp [hreduce, hcall]

/-- Behind an operator between operands an operand is always due. -/
theorem operandDue_of_binary {reading after : Reading}
    (h : reading.binary position token = .ok after) : after.operandDue = true := by
  unfold binary at h
  split at h
  · cases h
  · split at h
    · cases h
    · simp only [bind_eq_ok_iff] at h
      obtain ⟨_, _, heq⟩ := h
      cases heq
      rfl

/-- A token that makes a product with the operand before it is read as the sign
of a product and the token. -/
theorem step_juxtaposes {reading : Reading} {next : Located}
    (hended : reading.operandDue = false) (h : next.token.juxtaposes = true) :
    reading.step next = reading.binary next.position (.binary "*") >>= (·.step next) := by
  obtain ⟨position, token⟩ := next
  cases hbinary : reading.binary position (.binary "*") with
  | error e =>
    cases token with
    | argument _ | constant _ => simp [step, operand, impliedProduct, hended, hbinary]
    | call _ | opening => simp [step, leading, impliedProduct, hended, hbinary]
    | _ => cases h
  | ok after =>
    have hafter := operandDue_of_binary hbinary
    cases token with
    | argument _ | constant _ => simp [step, operand, impliedProduct, hended, hbinary, hafter]
    | call _ | opening => simp [step, leading, impliedProduct, hended, hbinary, hafter]
    | _ => cases h

end Reading

end FormulaCalculator
