import FormulaCalculator.Proofs.OpenGroups
import FormulaCalculator.Proofs.ReadingSteps

/-!
# The tokens that wait

While a formula is read, tokens of the text wait for their operands, and with them
the signs of implied products, which are in no text. All others that wait are
tokens of the text, the last one always is where an operand is due, and the
opening parentheses among them are the groups that are open.
-/

set_option autoImplicit false

namespace FormulaCalculator

namespace Reading

open Located

variable {reading after : Reading} {next top : Located} {op : Operator} {n position : Nat}
  {token : Token} {before rest located waiting waiting' : List Located}
  {operands operands' : List SyntaxTree}

/-- What is left of the waiting tokens when operators have gone from the top. -/
structure Leaves (waiting rest : List Located) : Prop where
  suffix : rest <:+ waiting
  filter_opens : rest.filter opens = waiting.filter opens

/-- Nothing has to go. -/
theorem leaves_refl (waiting : List Located) : Leaves waiting waiting := ⟨List.suffix_rfl, rfl⟩

/-- One operator more has gone from the top; a parenthesis would have stayed. -/
theorem Leaves.cons (h : Leaves waiting rest) (htop : top.token ≠ .opening) :
    Leaves (top :: waiting) rest := by
  refine ⟨h.suffix.trans (List.suffix_cons top waiting), ?_⟩
  rw [List.filter_cons_of_neg (by rwa [opens_eq_true_iff])]
  exact h.filter_opens

/-- In front of an operator only operators go, and a parenthesis stops them. -/
theorem leaves_of_reduceBefore
    (h : reduceBefore op operands waiting = .ok (operands', waiting')) :
    Leaves waiting waiting' := by
  induction waiting generalizing operands with
  | nil =>
    cases h
    exact leaves_refl []
  | cons top waiting ih =>
    cases hop : top.token.operator? with
    | none =>
      rw [reduceBefore_stays (by simp [hop])] at h
      cases h
      exact leaves_refl _
    | some other =>
      rw [reduceBefore_cons hop] at h
      split at h
      · obtain ⟨rest, -, hrest⟩ := bind_eq_ok_iff.mp h
        exact (ih hrest).cons (ne_opening_of_operator? hop)
      · cases h
        exact leaves_refl _

/-- Operators that settle go from the top. -/
theorem leaves_of_settles {n : Nat} (h : Settles n waiting operands operands') :
    Leaves (waiting ++ rest) rest := by
  induction h with
  | nil => exact leaves_refl rest
  | cons hop _ _ _ ih => exact ih.cons (ne_opening_of_operator? hop)

/-- Closing a group lets the operators inside it go and then its parenthesis, which is the
last that was opened. -/
theorem exists_of_reduceGroup
    (h : reduceGroup position operands waiting = .ok (operands', waiting')) :
    ∃ opened, opened.token = .opening ∧ Leaves waiting (opened :: waiting') := by
  induction waiting generalizing operands with
  | nil => cases h
  | cons top waiting ih =>
    by_cases htop : top.token = .opening
    · obtain ⟨start, token⟩ := top
      obtain rfl := htop
      cases h
      exact ⟨_, rfl, leaves_refl _⟩
    · rw [reduceGroup_cons htop] at h
      obtain ⟨rest, -, hrest⟩ := bind_eq_ok_iff.mp h
      obtain ⟨opened, hopened, hleaves⟩ := ih hrest
      exact ⟨opened, hopened, hleaves.cons htop⟩

/-- What a step makes of the tokens that wait. A token that starts an operand can
put the sign of a product in front of it. -/
inductive Moves (next : Located) (waiting : List Located) : List Located → Bool → Prop where
  | ended {rest implied : List Located} : next.token.isParenthesis = false →
      Leaves waiting rest → (∀ sign ∈ implied, sign.token = .binary "*") →
      Moves next waiting (implied ++ rest) false
  | due {rest implied : List Located} : next.token ≠ .closing →
      Leaves waiting rest → (∀ sign ∈ implied, sign.token = .binary "*") →
      Moves next waiting (next :: (implied ++ rest)) true
  | closed {opened : Located} {rest rest' : List Located} : next.token = .closing →
      opened.token = .opening → Leaves waiting (opened :: rest) → Leaves rest rest' →
      Moves next waiting rest' false

/-- An operator between operands lets some go and waits then, with an operand due. -/
theorem exists_of_binary (h : reading.binary position token = .ok after) :
    ∃ operands rest, Leaves reading.waiting rest ∧
      after = ⟨operands, ⟨position, token⟩ :: rest, true⟩ := by
  unfold binary at h
  split at h
  · cases h
  · split at h
    · cases h
    · obtain ⟨⟨operands, rest⟩, hreduce, heq⟩ := bind_eq_ok_iff.mp h
      cases heq
      exact ⟨operands, rest, leaves_of_reduceBefore hreduce, rfl⟩

/-- Where an operand is due, no product is implied. -/
theorem impliedProduct_of_due (h : reading.operandDue = true) :
    reading.impliedProduct position token = .ok reading := if_pos h

/-- Where an operand has ended and another one starts, a product is implied and read like
its sign. -/
theorem impliedProduct_of_juxtaposes (hended : reading.operandDue = false)
    (h : token.juxtaposes = true) :
    reading.impliedProduct position token = reading.binary position (.binary "*") := by
  cases token with
  | argument _ | constant _ | call _ | opening => simp [impliedProduct, hended]
  | _ => cases h

/-- Where an operand has ended and the token can start none of a product, the token is
unexpected. -/
theorem impliedProduct_of_not_juxtaposes (hended : reading.operandDue = false)
    (h : token.juxtaposes = false) :
    reading.impliedProduct position token = .error ⟨position, .unexpectedToken token.symbol⟩ := by
  cases token with
  | argument _ | constant _ | call _ | opening => cases h
  | _ => simp [impliedProduct, hended]

/-- What an implied product does to the tokens that wait: some go, and its sign may wait
then. -/
theorem exists_of_impliedProduct (h : reading.impliedProduct position token = .ok after) :
    ∃ implied rest, Leaves reading.waiting rest ∧
      (∀ sign ∈ implied, sign.token = .binary "*") ∧ after.waiting = implied ++ rest := by
  cases hdue : reading.operandDue with
  | true =>
    rw [impliedProduct_of_due hdue] at h
    cases h
    exact ⟨[], reading.waiting, leaves_refl _, by simp, rfl⟩
  | false =>
    cases hjuxtaposes : token.juxtaposes with
    | true =>
      rw [impliedProduct_of_juxtaposes hdue hjuxtaposes] at h
      obtain ⟨operands, rest, hleaves, rfl⟩ := exists_of_binary h
      exact ⟨[⟨position, .binary "*"⟩], rest, hleaves, by simp, rfl⟩
    | false =>
      rw [impliedProduct_of_not_juxtaposes hdue hjuxtaposes] at h
      cases h

/-- An operand lets some go at most, if a product is implied in front of it. -/
theorem moves_of_operand (hnext : next.token.isParenthesis = false)
    (h : reading.operand next.position next.token = .ok after) :
    Moves next reading.waiting after.waiting after.operandDue := by
  obtain ⟨middle, hproduct, heq⟩ := bind_eq_ok_iff.mp h
  cases heq
  obtain ⟨implied, rest, hleaves, himplied, hwaiting⟩ := exists_of_impliedProduct hproduct
  rw [hwaiting]
  exact .ended hnext hleaves himplied

/-- A token in front of an operand waits, and so may the product that is implied in front
of it. -/
theorem moves_of_leading (hnext : next.token ≠ .closing)
    (h : reading.leading next.position next.token = .ok after) :
    Moves next reading.waiting after.waiting after.operandDue := by
  obtain ⟨middle, hproduct, heq⟩ := bind_eq_ok_iff.mp h
  cases heq
  obtain ⟨implied, rest, hleaves, himplied, hwaiting⟩ := exists_of_impliedProduct hproduct
  rw [hwaiting]
  exact .due hnext hleaves himplied

/-- An operator between operands lets some go and waits. -/
theorem moves_of_binary (hnext : next.token ≠ .closing)
    (h : reading.binary next.position next.token = .ok after) :
    Moves next reading.waiting after.waiting after.operandDue := by
  obtain ⟨operands, rest, hleaves, rfl⟩ := exists_of_binary h
  exact @Moves.due next reading.waiting rest [] hnext hleaves (by simp)

/-- A closing parenthesis lets its group go, and the call in front of it if there is
one. -/
theorem moves_of_closing (hnext : next.token = .closing)
    (h : reading.closing next.position = .ok after) :
    Moves next reading.waiting after.waiting after.operandDue := by
  unfold closing at h
  split at h
  · cases h
  · obtain ⟨⟨operands, rest⟩, hreduce, h⟩ := bind_eq_ok_iff.mp h
    obtain ⟨opened, hopened, hleaves⟩ := exists_of_reduceGroup hreduce
    dsimp only at h
    split at h
    · obtain ⟨operands', -, heq⟩ := bind_eq_ok_iff.mp h
      cases heq
      exact .closed hnext hopened hleaves ((leaves_refl _).cons (by simp))
    · cases h
      exact .closed hnext hopened hleaves (leaves_refl _)

/-- What a step does to the tokens that wait, from what each kind of token does. -/
theorem moves_of_step (h : reading.step next = .ok after) :
    Moves next reading.waiting after.waiting after.operandDue := by
  obtain ⟨position, token⟩ := next
  cases token with
  | number _ | argument _ | constant _ => exact moves_of_operand rfl h
  | call _ | opening => exact moves_of_leading (by simp) h
  | unary symbol =>
    simp only [step] at h
    split at h
    · exact moves_of_leading (by simp) h
    · cases h
  | binary _ => exact moves_of_binary (by simp) h
  | closing => exact moves_of_closing rfl h
  | stray _ => cases h

/-- What is known of the tokens that wait when the tokens in front have been read. -/
structure Accounts (located : List Located) (reading : Reading) : Prop where
  groups : openGroups located = some (reading.waiting.filter opens)
  written : ∀ top ∈ reading.waiting, top.token ≠ .binary "*" → top ∈ located
  due : reading.operandDue = true → ∀ top ∈ reading.waiting.head?, top ∈ located

/-- Before the first token nothing waits. -/
theorem accounts_start : Accounts [] .start := ⟨rfl, by simp [start], by simp [start]⟩

/-- Signs of implied products open no groups. -/
theorem filter_opens_append {implied : List Located}
    (h : ∀ sign ∈ implied, sign.token = .binary "*") :
    (implied ++ rest).filter opens = rest.filter opens := by
  rw [List.filter_append, List.filter_eq_nil_iff.mpr, List.nil_append]
  intro sign hsign
  rw [opens_eq_true_iff, h sign hsign]
  simp

/-- Signs of products that are put on top make no difference to what was written. -/
theorem written_append (implied : List Located) (next : Located)
    (h : ∀ top ∈ waiting, top.token ≠ .binary "*" → top ∈ located)
    (himplied : ∀ sign ∈ implied, sign.token = .binary "*") (hrest : rest <:+ waiting) :
    ∀ top ∈ implied ++ rest, top.token ≠ .binary "*" → top ∈ located ++ [next] := by
  intro top hmem hne
  rcases List.mem_append.mp hmem with hsign | htop
  · exact absurd (himplied top hsign) hne
  · exact List.mem_append_left _ (h top (hrest.subset htop) hne)

/-- What is known of the tokens that wait is kept by each step that makes no error. -/
theorem Accounts.step (h : Accounts located reading) (hstep : reading.step next = .ok after) :
    Accounts (located ++ [next]) after := by
  obtain ⟨hgroups, hwritten, -⟩ := h
  have hmoves := moves_of_step hstep
  obtain ⟨operands, waiting, operandDue⟩ := after
  dsimp only at hmoves
  cases hmoves with
  | @ended rest implied hnext hleaves himplied =>
    refine ⟨?_, written_append implied next hwritten himplied hleaves.suffix, by simp⟩
    rw [openGroups_append_singleton, hgroups, Option.bind_some, track_of_not_isParenthesis hnext,
      filter_opens_append himplied, hleaves.filter_opens]
  -- The token itself waits on top, so what is due is right behind a token of the text.
  | @due rest implied hnext hleaves himplied =>
    refine ⟨?_, ?_, ?_⟩
    · rw [openGroups_append_singleton, hgroups, Option.bind_some]
      by_cases hopening : next.token = .opening
      · rw [track_opening hopening, List.filter_cons_of_pos (opens_eq_true_iff.mpr hopening),
          filter_opens_append himplied, hleaves.filter_opens]
      · have hnot : next.token.isParenthesis = false := by
          cases htoken : next.token <;> simp_all [Token.isParenthesis]
        rw [track_of_not_isParenthesis hnot, List.filter_cons_of_neg (by rwa [opens_eq_true_iff]),
          filter_opens_append himplied, hleaves.filter_opens]
    · intro top hmem hne
      rcases List.mem_cons.mp hmem with rfl | hmem
      · simp
      · exact written_append implied next hwritten himplied hleaves.suffix top hmem hne
    · intro _ top hmem
      obtain rfl := Option.some.inj hmem
      simp
  | @closed opened rest rest' hnext hopened hleaves hrest =>
    refine ⟨?_, ?_, by simp⟩
    · rw [openGroups_append_singleton, hgroups, Option.bind_some, ← hleaves.filter_opens,
        List.filter_cons_of_pos (opens_eq_true_iff.mpr hopened), track_closing hnext,
        hrest.filter_opens]
    · have hsuffix := hrest.suffix.trans ((List.suffix_cons opened rest).trans hleaves.suffix)
      exact written_append [] next hwritten (by simp) hsuffix

/-- It is kept as long as there is no error, by induction on the tokens. -/
theorem Accounts.run (h : Accounts before reading)
    (hrun : located.foldlM Reading.step reading = .ok after) :
    Accounts (before ++ located) after := by
  induction located generalizing before reading with
  | nil =>
    cases hrun
    rwa [List.append_nil]
  | cons next located ih =>
    rw [List.foldlM_cons] at hrun
    obtain ⟨middle, hstep, hrest⟩ := bind_eq_ok_iff.mp hrun
    have hall := ih (h.step hstep) hrest
    rwa [List.append_assoc, List.singleton_append] at hall

end Reading

end FormulaCalculator
