import FormulaCalculator.Proofs.OperandBalance

/-!
# Lexer and reader in step

A formula is cut into tokens and read in two places that know nothing of each other:
the lexer remembers the last token, and the reader whether an operand is due. That
the two are in step after every token of every text, and the stacks with them, is
said here, together with what follows from it: reducing never lacks an operand, a
unary sign never comes behind an operand, and no tree is left over at the end. Where
an operand is due nothing is reduced at all. So each error has another cause than
these.
-/

set_option autoImplicit false

namespace FormulaCalculator

namespace Reading

open Token

variable {reading : Reading} {next : Located} {position : Nat} {previous : Option Located}
  {error : SyntaxError}

/-- Whatever is reduced finds its operands. Reducing before an operator succeeds;
reducing a group or all that waits fails only where a parenthesis has no match; the
call that a group belongs to finds the group; and one tree is left at the end. -/
structure FindsOperands (reading : Reading) : Prop where
  before : ∀ op, ∃ operands waiting,
    reduceBefore op reading.operands reading.waiting = .ok (operands, waiting)
  group : ∀ position error, reduceGroup position reading.operands reading.waiting = .error error →
    error = ⟨position, .parenthesisMismatch⟩
  call : ∀ position operands called name waiting,
    reduceGroup position reading.operands reading.waiting =
      .ok (operands, ⟨called, .call name⟩ :: waiting) →
    ∃ operands', reduce ⟨called, .call name⟩ operands = .ok operands'
  all : ∀ error, reduceAll reading.operands reading.waiting = .error error →
    error.fault = .parenthesisMismatch
  root : ∀ operands, reduceAll reading.operands reading.waiting = .ok operands →
    ∃ tree, operands = [tree]

/-- Where an operand has ended, every operator that waits finds its operands, so no loop
fails. -/
theorem Agrees.findsOperands (h : Agrees previous reading) (hended : reading.operandDue = false) :
    reading.FindsOperands := by
  have hstacked := h.stacked_of_ended hended
  have hlength := h.length_of_ended hended
  have hgroup := hstacked.reduceGroup_cases hlength
  have hall := hstacked.reduceAll_cases hlength
  constructor
  · intro op
    obtain ⟨operands, waiting, hreduce, -⟩ := hstacked.exists_reduceBefore op hlength
    exact ⟨operands, waiting, hreduce⟩
  · intro position error herror
    rcases hgroup position with ⟨hmismatch, -⟩ | ⟨_, _, hreduce, -⟩ | ⟨_, _, _, _, _, hreduce, -⟩
    · exact Except.error.inj (herror.symm.trans hmismatch)
    · cases herror.symm.trans hreduce
    · cases herror.symm.trans hreduce
  · intro position operands called name waiting hok
    rcases hgroup position with
      ⟨hmismatch, -⟩ | ⟨operands', waiting', hreduce, hstacked', -⟩ | ⟨_, _, _, _, _, hreduce, -⟩
    · cases hok.symm.trans hmismatch
    · cases hok.symm.trans hreduce
      exact absurd rfl (hstacked'.ne_call _ rfl name)
    · cases hok.symm.trans hreduce
      obtain ⟨op, hop, harity⟩ := exists_operator?_call name
      exact ⟨_, reduce_unary hop harity⟩
  · intro error herror
    rcases hall with ⟨tree, hreduce⟩ | ⟨_, _, _, _, _, _, hmismatch⟩
    · cases herror.symm.trans hreduce
    · cases herror.symm.trans hmismatch
      rfl
  · intro operands hok
    rcases hall with ⟨tree, hreduce⟩ | ⟨_, _, _, _, _, _, hmismatch⟩
    · exact ⟨tree, Except.ok.inj (hok.symm.trans hreduce)⟩
    · cases hok.symm.trans hmismatch

/-- What can be wrong with a token: it is no part of any formula, it comes where an
operand is due and starts none, or where one has just ended and starts another, or it
closes a group and none is open. -/
inductive Rejects (reading : Reading) (next : Located) : SyntaxError → Prop where
  | stray {lexeme : String} : next.token = .stray lexeme →
      Rejects reading next ⟨next.position, strayFault lexeme⟩
  | number {value : Float} : next.token = .number value → reading.operandDue = false →
      Rejects reading next ⟨next.position, .unexpectedToken next.token.symbol⟩
  | binary {symbol : String} : next.token = .binary symbol → reading.operandDue = true →
      Rejects reading next ⟨next.position, .missingOperand symbol⟩
  | closing : next.token = .closing → reading.operandDue = true →
      Rejects reading next (operandMissing reading.waiting next.position true)
  | unopened : next.token = .closing → reading.operandDue = false →
      (∀ top ∈ reading.waiting, top.token ≠ .opening) →
      Rejects reading next ⟨next.position, .parenthesisMismatch⟩

/-- What can be wrong with the end: nothing has been read, an operand is due, or a
group is open. -/
inductive Lacks (reading : Reading) (position : Nat) : SyntaxError → Prop where
  | everything : reading = .start → Lacks reading position ⟨0, .emptyExpression⟩
  | operand : reading.operandDue = true → reading.waiting ≠ [] →
      Lacks reading position (operandMissing reading.waiting position false)
  | closing {above below : List Located} {opened : Located} : reading.operandDue = false →
      reading.waiting = above ++ opened :: below → (∀ top ∈ above, top.token ≠ .opening) →
      opened.token = .opening → Lacks reading position ⟨opened.position, .parenthesisMismatch⟩

/-- An error where an operand is due. It is raised before anything is reduced. -/
theorem rejects_of_due (hdue : reading.operandDue = true)
    (herror : reading.step next = .error error) : reading.Rejects next error := by
  obtain ⟨position, token⟩ := next
  cases token with
  | number _ | argument _ | constant _ =>
    simp [step, operand, impliedProduct_of_due hdue] at herror
  | call _ | opening => simp [step, leading, impliedProduct_of_due hdue] at herror
  | unary _ => simp [step, leading, impliedProduct_of_due hdue, hdue] at herror
  | binary symbol =>
    simp only [step, Reading.binary, hdue, if_true] at herror
    cases herror
    exact .binary rfl hdue
  | closing =>
    simp only [step, Reading.closing, hdue, if_true] at herror
    cases herror
    exact .closing rfl hdue
  | stray lexeme =>
    cases herror
    exact .stray rfl

/-- An operator of the table can be read wherever an operand has ended. -/
theorem Agrees.exists_binary {symbol : String} (h : Agrees previous reading)
    (hended : reading.operandDue = false) {op : Operator}
    (hop : (Token.binary symbol).operator? = some op) (position : Nat) :
    ∃ after, reading.binary position (.binary symbol) = .ok after := by
  obtain ⟨operands, waiting, hreduce, -⟩ :=
    (h.stacked_of_ended hended).exists_reduceBefore op (h.length_of_ended hended)
  obtain ⟨trees, tokens, operandDue⟩ := reading
  obtain rfl : operandDue = false := hended
  exact ⟨_, binary_eq hop hreduce⟩

/-- A token that makes a product with the operand before it can be read. -/
theorem Agrees.exists_juxtaposed (h : Agrees previous reading)
    (hended : reading.operandDue = false) (hjuxtaposes : next.token.juxtaposes = true) :
    ∃ after, reading.step next = .ok after := by
  obtain ⟨op, hop, -⟩ := Scales.times.operator?
  obtain ⟨middle, hmiddle⟩ := h.exists_binary hended hop next.position
  have hdue := operandDue_of_binary hmiddle
  rw [step_juxtaposes hended hjuxtaposes, hmiddle, ok_bind]
  obtain ⟨position, token⟩ := next
  cases token with
  | argument _ | constant _ => simp [Reading.step, operand, impliedProduct_of_due hdue]
  | call _ | opening => simp [Reading.step, leading, impliedProduct_of_due hdue]
  | _ => cases hjuxtaposes

/-- An error where an operand has just ended. -/
theorem Agrees.rejects_of_ended (h : Agrees previous reading)
    (hfollow : CanFollow (previous.map Located.token) next.token)
    (hended : reading.operandDue = false) (herror : reading.step next = .error error) :
    reading.Rejects next error := by
  cases hjuxtaposes : next.token.juxtaposes with
  | true =>
    obtain ⟨after, hafter⟩ := h.exists_juxtaposed hended hjuxtaposes
    cases hafter.symm.trans herror
  | false =>
    obtain ⟨position, token⟩ := next
    cases token with
    | argument _ | constant _ | call _ | opening => cases hjuxtaposes
    | number value =>
      simp only [Reading.step, operand, impliedProduct_of_not_juxtaposes hended hjuxtaposes,
        error_bind] at herror
      cases herror
      exact .number rfl hended
    -- The lexer makes a sign unary only where an operand is due.
    | unary symbol =>
      cases (h.due_of_unary hfollow rfl).symm.trans hended
    | binary symbol =>
      obtain ⟨op, hop⟩ := hfollow.binary symbol rfl
      obtain ⟨after, hafter⟩ := h.exists_binary hended hop position
      cases hafter.symm.trans herror
    | closing =>
      obtain ⟨operands, waiting, operandDue⟩ := reading
      obtain rfl : operandDue = false := hended
      rcases (h.stacked_of_ended rfl).reduceGroup_cases (h.length_of_ended rfl) position with
        ⟨hmismatch, hopening⟩ | ⟨_, _, hreduce, hstacked, -⟩ | ⟨_, _, _, _, _, hreduce, -⟩
      · simp only [Reading.step, Reading.closing, Bool.false_eq_true, if_false, hmismatch,
          error_bind] at herror
        cases herror
        exact .unopened rfl rfl hopening
      · cases (closing_group hreduce hstacked.ne_call).symm.trans herror
      · cases (closing_call hreduce).symm.trans herror
    | stray lexeme =>
      cases herror
      exact .stray rfl

/-- An error at a token of a text has one of the causes. -/
theorem Agrees.rejects (h : Agrees previous reading)
    (hfollow : CanFollow (previous.map Located.token) next.token)
    (herror : reading.step next = .error error) : reading.Rejects next error := by
  cases hdue : reading.operandDue with
  | true => exact rejects_of_due hdue herror
  | false => exact h.rejects_of_ended hfollow hdue herror

/-- An error at the end of a text has one of the causes. -/
theorem Agrees.lacks (h : Agrees previous reading)
    (herror : reading.finish position = .error error) : reading.Lacks position error := by
  cases hdue : reading.operandDue with
  | true =>
    simp only [finish, hdue, if_true] at herror
    split at herror
    · next hempty =>
      rw [Bool.and_eq_true, List.isEmpty_iff, List.isEmpty_iff] at hempty
      cases herror
      refine .everything ?_
      obtain ⟨operands, waiting, operandDue⟩ := reading
      obtain ⟨rfl, rfl⟩ := hempty
      obtain rfl := hdue
      rfl
    · next hempty =>
      cases herror
      refine .operand hdue fun hwaiting => hempty ?_
      have hlength := h.length_eq
      rw [hdue, hwaiting] at hlength
      rw [hwaiting, List.length_eq_zero_iff.mp hlength]
      rfl
  | false =>
    simp only [finish, hdue, Bool.false_eq_true, if_false] at herror
    rcases (h.stacked_of_ended hdue).reduceAll_cases (h.length_of_ended hdue) with
      ⟨tree, hreduce⟩ | ⟨above, opened, below, hwaiting, habove, hopened, hreduce⟩
    · rw [hreduce] at herror
      cases herror
    · rw [hreduce] at herror
      cases herror
      exact .closing hdue hwaiting habove hopened

/-- What holds when the tokens in front have been read and those behind have not. -/
structure InStep (text : String) (before behind : List Located) (reading : Reading) : Prop where
  /-- One tree is finished for each binary operator that waits, and one more where an
  operand has just ended. -/
  length_eq : reading.operands.length =
    binaryCount reading.waiting + if reading.operandDue then 0 else 1
  /-- The lexer goes on with the tokens behind, and remembers the one read last. -/
  lexer : ∃ cursor finish,
    (Scan.tokens before.length none).run (.ofText text.toList) = (before, cursor) ∧
      cursor.lexeme = [] ∧ Scan.Yields (before.getLast?.map Located.token) cursor behind finish
  /-- Wherever a minus comes next, the lexer reads it as unary exactly if an operand is due. -/
  minus : ∀ (cursor : Cursor) (rest : List Char), cursor.lexeme = [] →
    cursor.ahead.dropWhile Text.isBlankAscii = '-' :: rest →
    ((Scan.located (before.getLast?.map Located.token)).run cursor).1 =
      some ⟨cursor.start + (cursor.ahead.takeWhile Text.isBlankAscii).length,
        if reading.operandDue then .unary "-" else .binary "-"⟩
  /-- The name of a call waits directly below a parenthesis, or it was read last. -/
  call : ∀ above called below name, reading.waiting = above ++ called :: below →
    called.token = .call name →
    (∃ opened ∈ above.getLast?, opened.token = .opening) ∨
      above = [] ∧ before.getLast? = some called
  /-- A unary sign comes next only where an operand is due. -/
  unary : ∀ next rest symbol, behind = next :: rest → next.token = .unary symbol →
    reading.operandDue = true
  /-- Where an operand has ended, all that is reduced finds its operands. -/
  findsOperands : reading.operandDue = false → reading.FindsOperands
  /-- An error at the next token has none of the causes that the above rules out. -/
  rejects : ∀ next rest error, behind = next :: rest → reading.step next = .error error →
    reading.Rejects next error
  /-- Nor has an error at the end, if the text ends here. -/
  lacks : ∀ position error, reading.finish position = .error error →
    reading.Lacks position error

/-- After any number of tokens of a text that are read without an error, the lexer, the
flag and the two stacks are in step. -/
theorem inStep_of_located {text : String} {before behind : List Located}
    (hlocated : (Lexed.ofText text).located = before ++ behind)
    (hread : before.foldlM Reading.step .start = .ok reading) :
    reading.InStep text before behind := by
  have h := agrees_of_located hlocated hread
  have hended : (before.getLast?.map Located.token).any endsOperand = !reading.operandDue := by
    rw [h.due_eq, Bool.not_not]
  refine ⟨h.length_eq, Lexed.exists_tokens_of_located hlocated, ?_, ?_, ?_, h.findsOperands, ?_,
    fun _ _ => h.lacks⟩
  · intro cursor rest hlexeme hahead
    rw [Scan.answer_located_minus hlexeme hahead, hended]
    cases reading.operandDue with
    | false => rfl
    | true => rfl
  · intro above called below name hsplit hcalled
    exact h.exists_opening hsplit hcalled
  · intro next rest symbol hbehind hunary
    rw [hbehind] at hlocated
    exact h.due_of_unary (Lexed.canFollow_of_located hlocated) hunary
  · intro next rest error hbehind herror
    rw [hbehind] at hlocated
    exact h.rejects (Lexed.canFollow_of_located hlocated) herror

/-- In the middle of `(2x-sin(-x))^2` two operands have ended: the product that `2x`
implies waits no longer, and the call of the sine waits below its parenthesis. -/
theorem inStep_of_located_openCall :
    let before : List Located := [⟨0, .opening⟩, ⟨1, .number 2⟩, ⟨2, .argument "x"⟩,
      ⟨3, .binary "-"⟩, ⟨4, .call "sin"⟩, ⟨7, .opening⟩, ⟨8, .unary "-"⟩, ⟨9, .argument "x"⟩]
    let behind : List Located :=
      [⟨10, .closing⟩, ⟨11, .closing⟩, ⟨12, .binary "^"⟩, ⟨13, .number 2⟩]
    let reading : Reading := ⟨[.leaf (.argument "x"),
        .binary (.binary "*") (.leaf (.number 2)) (.leaf (.argument "x"))],
      [⟨8, .unary "-"⟩, ⟨7, .opening⟩, ⟨4, .call "sin"⟩, ⟨3, .binary "-"⟩, ⟨0, .opening⟩], false⟩
    (Lexed.ofText "(2x-sin(-x))^2").located = before ++ behind ∧
      before.foldlM Reading.step .start = .ok reading ∧
      reading.InStep "(2x-sin(-x))^2" before behind := by
  intro before behind reading
  have hlocated : (Lexed.ofText "(2x-sin(-x))^2").located = before ++ behind := by
    decide +kernel
  have hread : before.foldlM Reading.step .start = .ok reading := by
    decide +kernel
  exact ⟨hlocated, hread, inStep_of_located hlocated hread⟩

end Reading

end FormulaCalculator
