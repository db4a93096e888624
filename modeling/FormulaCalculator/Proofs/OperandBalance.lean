import FormulaCalculator.Proofs.FormulaOrder
import FormulaCalculator.Proofs.OperandCount
import FormulaCalculator.Proofs.RememberedToken
import FormulaCalculator.Proofs.WaitingTokens

/-!
# Finished trees and waiting tokens

While a formula is read, three things have to agree: the token that the lexer
remembers, whether an operand is due, and the two stacks. One finished tree is there
for each binary operator that waits, and one more where an operand has just ended.
The name of a call waits directly below its parenthesis. So whatever is reduced finds
its operands, and with this one step keeps the three in agreement, and so does a run
of steps.
-/

set_option autoImplicit false

namespace FormulaCalculator

namespace Reading

open Token

variable {reading after : Reading} {next top : Located} {op : Operator} {position : Nat}
  {token : Token} {previous : Option Located} {waiting : List Located} {operands : List SyntaxTree}

/-- How many of the waiting tokens take an operand on their left. -/
def binaryCount (waiting : List Located) : Nat := waiting.countP (·.token.isBinary)

/-- One more waiting token counts if it takes an operand on its left. -/
theorem binaryCount_cons (top : Located) (waiting : List Located) :
    binaryCount (top :: waiting) = binaryCount waiting + if top.token.isBinary then 1 else 0 :=
  List.countP_cons

/-- Tokens that wait where an operand is due or has just ended. A call waits directly
below a parenthesis, and every other token is a parenthesis or an operator that the
table knows. -/
inductive Stacked : List Located → Prop where
  | nil : Stacked []
  | group {opened : Nat} {waiting : List Located} : Stacked waiting →
      Stacked (⟨opened, .opening⟩ :: waiting)
  | call {opened called : Nat} {name : String} {waiting : List Located} : Stacked waiting →
      Stacked (⟨opened, .opening⟩ :: ⟨called, .call name⟩ :: waiting)
  | operator {top : Located} {op : Operator} {waiting : List Located} :
      top.token.operator? = some op → (op.arity = .binary ↔ top.token.isBinary = true) →
      (∀ name, top.token ≠ .call name) → Stacked waiting → Stacked (top :: waiting)

/-- A minus in front of an operand can wait on top of anything that waits in order. -/
theorem Stacked.negation (h : Stacked waiting) (position : Nat) :
    Stacked (⟨position, .unary "-"⟩ :: waiting) :=
  .operator Token.operator?_negation (by simp [Token.negation, isBinary]) (by simp) h

/-- An operator between operands can wait on top of anything that waits in order. -/
theorem Stacked.binary {symbol : String} (h : Stacked waiting)
    (hop : (Token.binary symbol).operator? = some op) (position : Nat) :
    Stacked (⟨position, .binary symbol⟩ :: waiting) := by
  have harity : op.arity = .binary := (Operator.mem_of_find? hop).2.2
  exact .operator hop (by simp [harity, isBinary]) (by simp) h

/-- A call never waits on top, for its parenthesis waits above it. -/
theorem Stacked.ne_call (h : Stacked waiting) :
    ∀ top ∈ waiting.head?, ∀ name, top.token ≠ .call name := by
  intro top htop name
  cases h with
  | nil => cases htop
  | group _ | call _ =>
    obtain rfl := Option.some.inj htop
    simp
  | operator _ _ hcall _ =>
    obtain rfl := Option.some.inj htop
    exact hcall name

/-- A token that is no call can be put on tokens whose calls have their parentheses. -/
theorem exists_opening_cons {first called : Located} {above below : List Located} {name : String}
    (hwaiting : ∀ above, waiting = above ++ called :: below →
      ∃ opened ∈ above.getLast?, opened.token = .opening)
    (hfirst : ∀ name, first.token ≠ .call name) (hcalled : called.token = .call name)
    (hsplit : first :: waiting = above ++ called :: below) :
    ∃ opened ∈ above.getLast?, opened.token = .opening := by
  cases above with
  | nil =>
    obtain ⟨rfl, -⟩ := List.cons.inj hsplit
    exact absurd hcalled (hfirst name)
  | cons top above =>
    obtain ⟨opened, hmem, hopened⟩ := hwaiting above (List.cons.inj hsplit).2
    exact ⟨opened, List.mem_getLast?_cons hmem, hopened⟩

/-- Each call among the tokens has a parenthesis directly above it. -/
theorem Stacked.exists_opening (h : Stacked waiting) {below : List Located} {called : Located}
    {name : String} (hcalled : called.token = .call name) :
    ∀ above, waiting = above ++ called :: below →
      ∃ opened ∈ above.getLast?, opened.token = .opening := by
  induction h with
  | nil =>
    intro above hsplit
    simp at hsplit
  | group _ ih =>
    intro above hsplit
    exact exists_opening_cons ih (by simp) hcalled hsplit
  | call _ ih =>
    intro above hsplit
    cases above with
    | nil =>
      obtain ⟨rfl, -⟩ := List.cons.inj hsplit
      cases hcalled
    | cons first above =>
      obtain ⟨rfl, hrest⟩ := List.cons.inj hsplit
      cases above with
      | nil => exact ⟨_, rfl, rfl⟩
      | cons second above =>
        obtain ⟨opened, hmem, hopened⟩ := ih above (List.cons.inj hrest).2
        exact ⟨opened, List.mem_getLast?_cons (List.mem_getLast?_cons hmem), hopened⟩
  | operator _ _ hcall _ ih =>
    intro above hsplit
    exact exists_opening_cons ih hcall hcalled hsplit

/-! ## Reducing -/

/-- An operator finds its operands among as many trees as wait for them and one more. -/
theorem exists_reduce (hop : top.token.operator? = some op)
    (hbinary : op.arity = .binary ↔ top.token.isBinary = true)
    (hlength : operands.length = binaryCount (top :: waiting) + 1) :
    ∃ operands', reduce top operands = .ok operands' ∧
      operands'.length = binaryCount waiting + 1 := by
  rw [binaryCount_cons] at hlength
  by_cases harity : op.arity = .binary
  · rw [if_pos (hbinary.mp harity)] at hlength
    match operands, hlength with
    | right :: left :: operands, hlength =>
      refine ⟨_, reduce_binary hop harity, ?_⟩
      simp only [List.length_cons] at hlength ⊢
      omega
  · rw [if_neg (fun h => harity (hbinary.mpr h))] at hlength
    have hunary : op.arity = .unary := by
      cases hcases : op.arity with
      | unary => rfl
      | binary => exact absurd hcases harity
    match operands, hlength with
    | operand :: operands, hlength => exact ⟨_, reduce_unary hop hunary, hlength⟩

/-- What goes before an operator finds its operands. -/
theorem Stacked.exists_reduceBefore (h : Stacked waiting) (op : Operator)
    (hlength : operands.length = binaryCount waiting + 1) :
    ∃ operands' waiting', reduceBefore op operands waiting = .ok (operands', waiting') ∧
      Stacked waiting' ∧ operands'.length = binaryCount waiting' + 1 := by
  induction h generalizing operands with
  | nil => exact ⟨operands, [], rfl, .nil, hlength⟩
  | group hwaiting _ => exact ⟨operands, _, rfl, .group hwaiting, hlength⟩
  | call hwaiting _ => exact ⟨operands, _, rfl, .call hwaiting, hlength⟩
  | @operator top other waiting hother hbinary hcall hwaiting ih =>
    rw [reduceBefore_cons hother]
    by_cases hbefore : other.goesBefore op = true
    · obtain ⟨rest, hreduce, hrest⟩ := exists_reduce hother hbinary hlength
      rw [if_pos hbefore, hreduce]
      exact ih hrest
    · rw [if_neg hbefore]
      exact ⟨operands, _, rfl, .operator hother hbinary hcall hwaiting, hlength⟩

/-- What waits above the nearest parenthesis finds its operands. -/
theorem Stacked.exists_settles (h : Stacked waiting)
    (hlength : operands.length = binaryCount waiting + 1) :
    ∃ pending below result, waiting = pending ++ below ∧ Settles 0 pending operands result ∧
      Stacked below ∧ (∀ top ∈ below.head?, top.token = .opening) ∧
      result.length = binaryCount below + 1 := by
  induction h generalizing operands with
  | nil => exact ⟨[], [], operands, rfl, .nil, .nil, by simp, hlength⟩
  | group hwaiting _ => exact ⟨[], _, operands, rfl, .nil, .group hwaiting, by simp, hlength⟩
  | call hwaiting _ => exact ⟨[], _, operands, rfl, .nil, .call hwaiting, by simp, hlength⟩
  | @operator top op waiting hop hbinary _ _ ih =>
    obtain ⟨rest, hreduce, hrest⟩ := exists_reduce hop hbinary hlength
    obtain ⟨pending, below, result, rfl, hsettles, hbelow⟩ := ih hrest
    exact ⟨top :: pending, below, result, rfl, .cons hop (Nat.zero_le _) hreduce hsettles, hbelow⟩

/-- No parenthesis is among the operators that are settled. -/
theorem Settles.ne_opening {n : Nat} {pending : List Located} {result : List SyntaxTree}
    (h : Settles n pending operands result) : ∀ top ∈ pending, top.token ≠ .opening := by
  induction h with
  | nil => simp
  | cons hop _ _ _ ih => exact List.forall_mem_cons.mpr ⟨ne_opening_of_operator? hop, ih⟩

/-- A closing parenthesis finds its group, or there is no group that it could close. -/
theorem Stacked.reduceGroup_cases (h : Stacked waiting)
    (hlength : operands.length = binaryCount waiting + 1) (position : Nat) :
    (reduceGroup position operands waiting = .error ⟨position, .parenthesisMismatch⟩ ∧
        ∀ top ∈ waiting, top.token ≠ .opening) ∨
      (∃ operands' waiting', reduceGroup position operands waiting = .ok (operands', waiting') ∧
        Stacked waiting' ∧ operands'.length = binaryCount waiting' + 1) ∨
      ∃ operand operands' called name waiting',
        reduceGroup position operands waiting =
          .ok (operand :: operands', ⟨called, .call name⟩ :: waiting') ∧
        Stacked waiting' ∧ operands'.length = binaryCount waiting' := by
  obtain ⟨pending, below, result, rfl, hsettles, hbelow, hhead, hresult⟩ :=
    h.exists_settles hlength
  rw [hsettles.reduceGroup]
  cases hbelow with
  | nil =>
    rw [List.append_nil]
    exact .inl ⟨rfl, hsettles.ne_opening⟩
  | @group opened waiting hwaiting => exact .inr (.inl ⟨result, waiting, rfl, hwaiting, hresult⟩)
  | @call opened called name waiting hwaiting =>
    obtain ⟨operand, rest, rfl⟩ := List.exists_cons_of_length_eq_add_one hresult
    exact .inr (.inr ⟨operand, rest, called, name, waiting, rfl, hwaiting,
      Nat.add_right_cancel hresult⟩)
  | operator hop _ _ _ => exact absurd (hhead _ rfl) (ne_opening_of_operator? hop)

/-- At the end there is one tree, or a group that nothing closes. -/
theorem Stacked.reduceAll_cases (h : Stacked waiting)
    (hlength : operands.length = binaryCount waiting + 1) :
    (∃ tree, reduceAll operands waiting = .ok [tree]) ∨
      ∃ above opened below, waiting = above ++ opened :: below ∧
        (∀ top ∈ above, top.token ≠ .opening) ∧ opened.token = .opening ∧
        reduceAll operands waiting = .error ⟨opened.position, .parenthesisMismatch⟩ := by
  obtain ⟨pending, below, result, rfl, hsettles, hbelow, hhead, hresult⟩ :=
    h.exists_settles hlength
  rw [hsettles.reduceAll]
  cases hbelow with
  | nil =>
    obtain ⟨tree, rfl⟩ := List.length_eq_one_iff.mp hresult
    exact .inl ⟨tree, rfl⟩
  | group _ | call _ => exact .inr ⟨pending, _, _, rfl, hsettles.ne_opening, rfl, rfl⟩
  | operator hop _ _ _ => exact absurd (hhead _ rfl) (ne_opening_of_operator? hop)

/-! ## Reading -/

/-- The state of reading agrees with the token that was read last. -/
structure Agrees (previous : Option Located) (reading : Reading) : Prop where
  length_eq : reading.operands.length =
    binaryCount reading.waiting + if reading.operandDue then 0 else 1
  due_eq : reading.operandDue = !(previous.map Located.token).any endsOperand
  stacked : Stacked reading.waiting ∨ ∃ called name waiting, previous = some called ∧
    called.token = .call name ∧ reading.waiting = called :: waiting ∧ Stacked waiting

/-- Before the first token an operand is due, and nothing waits. -/
theorem agrees_start : Agrees none .start := ⟨rfl, rfl, .inl .nil⟩

/-- Where an operand has ended no call is without its parenthesis. -/
theorem Agrees.stacked_of_ended (h : Agrees previous reading)
    (hended : reading.operandDue = false) : Stacked reading.waiting := by
  rcases h.stacked with hstacked | ⟨called, name, waiting, rfl, hcalled, -⟩
  · exact hstacked
  · have hdue := h.due_eq
    rw [hended, Option.map_some, hcalled] at hdue
    cases hdue

/-- Where an operand has ended, there is one operand more than waiting operators take on
their left. -/
theorem Agrees.length_of_ended (h : Agrees previous reading)
    (hended : reading.operandDue = false) :
    reading.operands.length = binaryCount reading.waiting + 1 := by
  rw [h.length_eq, hended]
  rfl

/-- The lexer cuts off a unary sign only where an operand is due. -/
theorem Agrees.due_of_unary {symbol : String} (h : Agrees previous reading)
    (hfollow : CanFollow (previous.map Located.token) next.token)
    (hunary : next.token = .unary symbol) : reading.operandDue = true := by
  obtain ⟨hnot, -⟩ := hfollow.unary symbol hunary
  rw [h.due_eq, hnot]
  rfl

/-- A binary operator leaves as many trees as wait for them. -/
theorem Agrees.of_binary {symbol : String} (h : Agrees previous reading)
    (hbinary : reading.binary position (.binary symbol) = .ok after) :
    after.operandDue = true ∧ after.operands.length = binaryCount after.waiting ∧
      Stacked after.waiting := by
  unfold Reading.binary at hbinary
  split at hbinary
  · cases hbinary
  · next hended =>
    have hended := Bool.eq_false_iff.mpr hended
    split at hbinary
    · cases hbinary
    · next op hop =>
      obtain ⟨operands, waiting, hreduce, hstacked, hlength⟩ :=
        (h.stacked_of_ended hended).exists_reduceBefore op (h.length_of_ended hended)
      rw [hreduce] at hbinary
      cases hbinary
      refine ⟨rfl, ?_, hstacked.binary hop position⟩
      simpa [binaryCount_cons, isBinary] using hlength

/-- In front of a token that starts an operand the product is complete that it makes. -/
theorem Agrees.of_impliedProduct (h : Agrees previous reading) (hstacked : Stacked reading.waiting)
    (hproduct : reading.impliedProduct position token = .ok after) :
    after.operandDue = true ∧ after.operands.length = binaryCount after.waiting ∧
      Stacked after.waiting := by
  cases hdue : reading.operandDue with
  | true =>
    rw [impliedProduct_of_due hdue] at hproduct
    cases hproduct
    have hlength := h.length_eq
    rw [hdue] at hlength
    exact ⟨hdue, hlength, hstacked⟩
  | false =>
    cases hjuxtaposes : token.juxtaposes with
    | true =>
      rw [impliedProduct_of_juxtaposes hdue hjuxtaposes] at hproduct
      exact h.of_binary hproduct
    | false =>
      rw [impliedProduct_of_not_juxtaposes hdue hjuxtaposes] at hproduct
      cases hproduct

/-- An operand without parts. -/
theorem Agrees.of_operand (h : Agrees previous reading) (hstacked : Stacked reading.waiting)
    (hdue : after.operandDue = !next.token.endsOperand)
    (hoperand : reading.operand next.position next.token = .ok after) :
    Agrees (some next) after := by
  obtain ⟨middle, hproduct, heq⟩ := bind_eq_ok_iff.mp hoperand
  cases heq
  obtain ⟨-, hlength, hmiddle⟩ := h.of_impliedProduct hstacked hproduct
  refine ⟨?_, hdue, .inl hmiddle⟩
  simpa using hlength

/-- A token that stands before an operand. -/
theorem Agrees.of_leading (h : Agrees previous reading) (hstacked : Stacked reading.waiting)
    (hdue : after.operandDue = !next.token.endsOperand) (hbinary : next.token.isBinary = false)
    (hpush : ∀ waiting, Stacked waiting →
      Stacked (next :: waiting) ∨ ∃ name, next.token = .call name)
    (hleading : reading.leading next.position next.token = .ok after) :
    Agrees (some next) after := by
  obtain ⟨middle, hproduct, heq⟩ := bind_eq_ok_iff.mp hleading
  cases heq
  obtain ⟨-, hlength, hmiddle⟩ := h.of_impliedProduct hstacked hproduct
  refine ⟨?_, hdue, ?_⟩
  · simpa [binaryCount_cons, hbinary] using hlength
  · rcases hpush middle.waiting hmiddle with hnext | ⟨name, hname⟩
    · exact .inl hnext
    · exact .inr ⟨next, name, middle.waiting, rfl, hname, rfl, hmiddle⟩

/-- The parenthesis behind the name of a call. -/
theorem Agrees.of_called {called : Located} {name : String} (h : Agrees (some called) reading)
    (hcalled : called.token = .call name) (hwaiting : reading.waiting = called :: waiting)
    (hstacked : Stacked waiting) (hnext : next.token = .opening)
    (hstep : reading.step next = .ok after) : Agrees (some next) after := by
  obtain ⟨operands, _, operandDue⟩ := reading
  obtain ⟨start, token⟩ := called
  obtain ⟨opened, token⟩ := next
  obtain rfl := hcalled
  obtain rfl := hwaiting
  obtain rfl := hnext
  obtain rfl : operandDue = true := h.due_eq
  cases hstep
  refine ⟨?_, rfl, .inl (.call hstacked)⟩
  simpa [binaryCount_cons, isBinary] using h.length_eq

/-- A parenthesis that closes a group, and the call that the group belongs to. -/
theorem Agrees.of_closing (h : Agrees previous reading)
    (hdue : after.operandDue = !next.token.endsOperand)
    (hclosing : reading.closing next.position = .ok after) : Agrees (some next) after := by
  obtain ⟨operands, waiting, operandDue⟩ := reading
  cases operandDue with
  | true => cases hclosing
  | false =>
    have hstacked := h.stacked_of_ended rfl
    have hlength := h.length_of_ended rfl
    rcases hstacked.reduceGroup_cases hlength next.position with
      ⟨hmismatch, -⟩ | ⟨operands', waiting', hreduce, hstacked', hlength'⟩ |
      ⟨operand, operands', called, name, waiting', hreduce, hstacked', hlength'⟩
    · simp [closing, hmismatch] at hclosing
    · rw [closing_group hreduce hstacked'.ne_call] at hclosing
      cases hclosing
      exact ⟨hlength', hdue, .inl hstacked'⟩
    · rw [closing_call hreduce] at hclosing
      cases hclosing
      refine ⟨?_, hdue, .inl hstacked'⟩
      simpa using hlength'

/-- Reading a token keeps the state in agreement with the lexer. -/
theorem Agrees.step (h : Agrees previous reading)
    (hfollow : CanFollow (previous.map Located.token) next.token)
    (hstep : reading.step next = .ok after) : Agrees (some next) after := by
  have hdue := operandDue_of_step hstep
  rcases h.stacked with hstacked | ⟨called, name, waiting, rfl, hcalled, hwaiting, hstacked⟩
  · obtain ⟨position, token⟩ := next
    cases token with
    | number _ | argument _ | constant _ => exact h.of_operand hstacked hdue hstep
    | call name => exact h.of_leading hstacked hdue rfl (fun _ _ => .inr ⟨name, rfl⟩) hstep
    | opening => exact h.of_leading hstacked hdue rfl (fun _ hw => .inl (.group hw)) hstep
    | unary symbol =>
      obtain ⟨-, rfl⟩ := hfollow.unary symbol rfl
      simp only [Reading.step] at hstep
      split at hstep
      · exact h.of_leading hstacked hdue rfl (fun _ hw => .inl (hw.negation position)) hstep
      · cases hstep
    | binary symbol =>
      obtain ⟨-, hlength, hafter⟩ := h.of_binary hstep
      refine ⟨?_, hdue, .inl hafter⟩
      rw [hlength, hdue]
      rfl
    | closing => exact h.of_closing hdue hstep
    | stray _ => cases hstep
  · have hnext : next.token = .opening := by
      apply hfollow.call name
      rw [Option.map_some, hcalled]
    exact h.of_called hcalled hwaiting hstacked hnext hstep

/-- The state agrees with the lexer after any tokens of a text. -/
theorem agrees_of_located {text : String} {before behind : List Located}
    (hlocated : (Lexed.ofText text).located = before ++ behind)
    (hread : before.foldlM Reading.step .start = .ok reading) :
    Agrees before.getLast? reading := by
  induction before using List.reverseRecOn generalizing behind reading with
  | nil =>
    cases hread
    exact agrees_start
  | append_singleton before next ih =>
    rw [List.append_assoc, List.singleton_append] at hlocated
    rw [List.foldlM_append] at hread
    obtain ⟨middle, hbefore, hlast⟩ := bind_eq_ok_iff.mp hread
    rw [List.foldlM_cons] at hlast
    obtain ⟨last, hstep, heq⟩ := bind_eq_ok_iff.mp hlast
    cases heq
    rw [List.getLast?_concat]
    exact (ih hlocated hbefore).step (Lexed.canFollow_of_located hlocated) hstep

/-- Each call that waits has its parenthesis directly above it, or it was read last. -/
theorem Agrees.exists_opening (h : Agrees previous reading) {above below : List Located}
    {called : Located} {name : String} (hsplit : reading.waiting = above ++ called :: below)
    (hcalled : called.token = .call name) :
    (∃ opened ∈ above.getLast?, opened.token = .opening) ∨ above = [] ∧ previous = some called := by
  rcases h.stacked with hstacked | ⟨last, _, waiting, hprevious, -, hwaiting, hstacked⟩
  · exact .inl (hstacked.exists_opening hcalled above hsplit)
  · rw [hwaiting] at hsplit
    cases above with
    | nil =>
      obtain ⟨rfl, -⟩ := List.cons.inj hsplit
      exact .inr ⟨rfl, hprevious⟩
    | cons first above =>
      obtain ⟨opened, hmem, hopened⟩ :=
        hstacked.exists_opening hcalled above (List.cons.inj hsplit).2
      exact .inl ⟨opened, List.mem_getLast?_cons hmem, hopened⟩

end Reading

end FormulaCalculator
