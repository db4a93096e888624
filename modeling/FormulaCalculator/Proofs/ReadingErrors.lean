import FormulaCalculator.Proofs.ReadingSoundness
import FormulaCalculator.Proofs.TokenPieces
import FormulaCalculator.Proofs.WaitingTokens

/-!
# What an error blames

If a text has no syntax tree, the error names one of its tokens, and stands where
this token does. The signs of implied products wait among the tokens of the text
without being there, so it has to be shown that none of them is ever blamed. A
missing operand is blamed on the last of the tokens that wait, which was read from
the text, and the parentheses without a match are those of the groups that are
open.
-/

set_option autoImplicit false

namespace FormulaCalculator

/-- The text of the token that a fault names, if it names one. -/
def SyntaxFault.symbol? : SyntaxFault → Option String
  | .unexpectedToken symbol | .missingOperand symbol | .malformedNumber symbol => some symbol
  | .parenthesisMismatch | .emptyExpression => none

/-- The error is about a token of the text. It stands at the token and names it,
and if it is about parentheses the token is one without a match. -/
structure SyntaxError.Blames (error : SyntaxError) (located : List Located) (blamed : Located) :
    Prop where
  mem : blamed ∈ located
  position_eq : blamed.position = error.position
  fault_ne : error.fault ≠ .emptyExpression
  symbol : ∀ symbol, error.fault.symbol? = some symbol → blamed.token.symbol = symbol
  mismatch : error.fault = .parenthesisMismatch →
    ∃ before after, located = before ++ blamed :: after ∧
      (blamed.token = .closing ∧ Token.Unopened (before.map Located.token) ∨
        blamed.token = .opening ∧ Token.Unclosed (after.map Located.token))

namespace Reading

open Located

variable {reading : Reading} {next top blamed : Located} {position : Nat} {fault : SyntaxFault}
  {error : SyntaxError} {before rest located waiting : List Located} {operands : List SyntaxTree}
  {beside : Bool} {ts us : List Token} {u : SyntaxTree}

/-- An error that names a token of the text blames it. -/
theorem blames_of_symbol (hmem : blamed ∈ located)
    (hsymbol : fault.symbol? = some blamed.token.symbol) :
    SyntaxError.Blames ⟨blamed.position, fault⟩ located blamed := by
  refine ⟨hmem, rfl, ?_, fun symbol h => ?_, ?_⟩
  · rintro rfl
    cases hsymbol
  · exact Option.some.inj (hsymbol.symm.trans h)
  · rintro rfl
    cases hsymbol

/-- Where no group is open, a closing parenthesis is the one without a match, and the
error names it rightly. -/
theorem blames_unopened (hgroups : openGroups before = some []) (hnext : next.token = .closing) :
    SyntaxError.Blames ⟨next.position, .parenthesisMismatch⟩ (before ++ next :: rest) next :=
  ⟨by simp, rfl, by simp, by simp [SyntaxFault.symbol?],
    fun _ => ⟨before, rest, rfl, .inl ⟨hnext, unopened_of_openGroups hgroups⟩⟩⟩

/-- A parenthesis whose group is open at the end is one without a match, and the error
names it rightly. -/
theorem blames_unclosed {above below : List Located}
    (hgroups : openGroups located = some (above ++ blamed :: below)) :
    SyntaxError.Blames ⟨blamed.position, .parenthesisMismatch⟩ located blamed := by
  obtain ⟨before, after, rfl, hopened, hafter⟩ := exists_of_openGroups hgroups
  exact ⟨by simp, rfl, by simp, by simp [SyntaxFault.symbol?],
    fun _ => ⟨before, after, rfl, .inr ⟨hopened, unclosed_of_openGroups hafter⟩⟩⟩

/-- Where an operand is missing, the last of the waiting tokens is to blame, or the
call it belongs to, or what comes instead of the operand. -/
theorem operandMissing_cases (waiting : List Located) (position : Nat) (closing : Bool) :
    (∃ top, (top ∈ waiting.head? ∨ top ∈ waiting ∧ ∃ name, top.token = .call name) ∧
        operandMissing waiting position closing =
          ⟨top.position, .missingOperand top.token.symbol⟩) ∨
      (closing = true ∧ operandMissing waiting position closing =
        ⟨position, .unexpectedToken Token.closing.symbol⟩) ∨
      (closing = false ∧ ∃ opened, opened ∈ waiting.head? ∧ opened.token = .opening ∧
        operandMissing waiting position closing = ⟨opened.position, .parenthesisMismatch⟩) ∨
      (closing = false ∧ waiting = []) := by
  unfold operandMissing
  split
  · next called name rest =>
    exact .inl ⟨⟨called, .call name⟩, .inr ⟨by simp, name, rfl⟩, rfl⟩
  · next opened rest _ =>
    cases closing with
    | true => exact .inr (.inl ⟨rfl, rfl⟩)
    | false => exact .inr (.inr (.inl ⟨rfl, ⟨opened, .opening⟩, by simp, rfl, rfl⟩))
  · next waits token rest _ _ => exact .inl ⟨⟨waits, token⟩, .inl (by simp), rfl⟩
  · cases closing with
    | true => exact .inr (.inl ⟨rfl, rfl⟩)
    | false => exact .inr (.inr (.inr ⟨rfl, rfl⟩))

/-- The waiting token that a missing operand is blamed on is one of the text. -/
theorem Accounts.mem_of_blamed (h : Accounts located reading) (hdue : reading.operandDue = true)
    (htop : top ∈ reading.waiting.head? ∨ top ∈ reading.waiting ∧ ∃ name, top.token = .call name) :
    top ∈ located := by
  rcases htop with htop | ⟨hmem, name, hcall⟩
  · exact h.due hdue top htop
  · apply h.written top hmem
    rw [hcall]
    simp

/-- A closing parenthesis where an operand is due. -/
theorem Accounts.exists_blames_closing (h : Accounts before reading)
    (hdue : reading.operandDue = true) (hnext : next.token = .closing) :
    ∃ blamed, (operandMissing reading.waiting next.position true).Blames (before ++ next :: rest)
      blamed := by
  rcases operandMissing_cases reading.waiting next.position true with
    ⟨top, htop, heq⟩ | ⟨-, heq⟩ | ⟨hfalse, -⟩ | ⟨hfalse, -⟩
  · rw [heq]
    exact ⟨top, blames_of_symbol (List.mem_append_left _ (h.mem_of_blamed hdue htop)) rfl⟩
  · rw [heq, ← hnext]
    exact ⟨next, blames_of_symbol (by simp) rfl⟩
  · cases hfalse
  · cases hfalse

/-- The end of the text where an operand is due. -/
theorem Accounts.exists_blames_end (h : Accounts located reading)
    (hdue : reading.operandDue = true) (hne : reading.waiting ≠ []) :
    ∃ blamed, (operandMissing reading.waiting position false).Blames located blamed := by
  rcases operandMissing_cases reading.waiting position false with
    ⟨top, htop, heq⟩ | ⟨htrue, -⟩ | ⟨-, opened, hhead, hopened, heq⟩ | ⟨-, hnil⟩
  · rw [heq]
    exact ⟨top, blames_of_symbol (h.mem_of_blamed hdue htop) rfl⟩
  · cases htrue
  · rw [heq]
    have hgroups := h.groups
    obtain ⟨rest, hrest⟩ := List.head?_eq_some_iff.mp hhead
    rw [hrest, List.filter_cons_of_pos (opens_eq_true_iff.mpr hopened)] at hgroups
    exact ⟨opened, @blames_unclosed opened located [] _ hgroups⟩
  · exact absurd hnil hne

/-- The fault of a stray token names the token by its text, whether it is a bad number or
not. -/
theorem symbol?_strayFault (lexeme : String) : (strayFault lexeme).symbol? = some lexeme := by
  unfold strayFault
  split
  · split <;> rfl
  · rfl

/-- An error where an operand is due. -/
theorem Accounts.exists_blames_due (h : Accounts before reading)
    (hdue : reading.operandDue = true) (hstep : reading.step next = .error error) :
    ∃ blamed, error.Blames (before ++ next :: rest) blamed := by
  have hmem : next ∈ before ++ next :: rest := by simp
  obtain ⟨position, token⟩ := next
  cases token with
  | number _ | argument _ | constant _ =>
    simp [Reading.step, operand, impliedProduct_of_due hdue] at hstep
  | call _ | opening => simp [Reading.step, leading, impliedProduct_of_due hdue] at hstep
  | unary _ => simp [Reading.step, leading, impliedProduct_of_due hdue, hdue] at hstep
  | binary symbol =>
    simp only [Reading.step, binary, hdue, if_true] at hstep
    cases hstep
    exact ⟨_, blames_of_symbol hmem rfl⟩
  | closing =>
    simp only [Reading.step, closing, hdue, if_true] at hstep
    cases hstep
    exact @exists_blames_closing reading ⟨position, .closing⟩ before rest h hdue rfl
  | stray lexeme =>
    cases hstep
    exact ⟨_, blames_of_symbol hmem (symbol?_strayFault lexeme)⟩

/-- A closing parenthesis behind an operand is wrong only if no group is open. -/
theorem Accounts.blames_closing (h : Accounts before ⟨u :: operands, waiting, false⟩)
    (hawaits : Awaits .factor beside ts operands waiting) (hu : Derives .primary us u)
    (hbeside : beside = true → us.head?.any Token.juxtaposes = true)
    (hnext : next.token = .closing)
    (herror : closing ⟨u :: operands, waiting, false⟩ next.position = .error error) :
    error.Blames (before ++ next :: rest) next := by
  obtain ⟨hsum, -, -, rfl, hsettles⟩ := (completes_product hawaits (.primary hu) hbeside).sum
  cases hsum with
  | start =>
    simp only [closing, Bool.false_eq_true, if_false, hsettles.reduceGroup, reduceGroup,
      error_bind] at herror
    cases herror
    have hgroups := h.groups
    rw [← (leaves_of_settles hsettles).filter_opens] at hgroups
    exact blames_unopened hgroups hnext
  | group hfactor =>
    have hcall (top : Located) (hmem : top ∈ _) (name : String) : top.token ≠ .call name :=
      (hfactor.bounded top hmem).1 name
    rw [closing_group (hsettles.reduceGroup.trans rfl) hcall] at herror
    cases herror
  | call hfactor =>
    rw [closing_call (hsettles.reduceGroup.trans rfl)] at herror
    cases herror

/-- An error behind an operand. -/
theorem Accounts.exists_blames_ended (h : Accounts before ⟨u :: operands, waiting, false⟩)
    (hawaits : Awaits .factor beside ts operands waiting) (hu : Derives .primary us u)
    (hbeside : beside = true → us.head?.any Token.juxtaposes = true)
    (hbinary : ∀ symbol, next.token = .binary symbol →
      (Token.binary symbol).Adds ∨ (Token.binary symbol).Scales ∨ symbol = "^")
    (hstep : Reading.step ⟨u :: operands, waiting, false⟩ next = .error error) :
    ∃ blamed, error.Blames (before ++ next :: rest) blamed := by
  have hmem : next ∈ before ++ next :: rest := by simp
  refine ⟨next, ?_⟩
  cases hjuxtaposes : next.token.juxtaposes with
  | true =>
    -- The product that is implied can be read, and so can the token behind it.
    obtain ⟨rest, below, hproduct, -⟩ := exists_implied hawaits hu hbeside next.position
    rw [step_juxtaposes rfl hjuxtaposes, hproduct] at hstep
    obtain ⟨position, token⟩ := next
    cases token with
    | argument _ | constant _ | call _ | opening => cases hstep
    | _ => cases hjuxtaposes
  | false =>
    obtain ⟨position, token⟩ := next
    cases token with
    | number value =>
      cases hstep
      exact blames_of_symbol hmem rfl
    | unary symbol =>
      cases hstep
      exact blames_of_symbol hmem rfl
    | binary symbol =>
      obtain ⟨after, hafter, -⟩ :=
        Reached.exists_binary hawaits hu hbeside (hbinary symbol rfl) position
      cases hafter.symm.trans hstep
    | closing => exact h.blames_closing hawaits hu hbeside rfl hstep
    | stray lexeme =>
      cases hstep
      exact blames_of_symbol hmem (symbol?_strayFault lexeme)
    | argument _ | constant _ | call _ | opening => cases hjuxtaposes

/-- An error at the end of the text behind an operand. -/
theorem Accounts.exists_blames_unclosed (h : Accounts located ⟨u :: operands, waiting, false⟩)
    (hawaits : Awaits .factor beside ts operands waiting) (hu : Derives .primary us u)
    (hbeside : beside = true → us.head?.any Token.juxtaposes = true)
    (herror : finish ⟨u :: operands, waiting, false⟩ position = .error error) :
    ∃ blamed, error.Blames located blamed := by
  obtain ⟨hsum, -, -, rfl, hsettles⟩ := (completes_product hawaits (.primary hu) hbeside).sum
  have hgroups := h.groups
  rw [← (leaves_of_settles hsettles).filter_opens] at hgroups
  simp only [finish, Bool.false_eq_true, if_false, hsettles.reduceAll] at herror
  cases hsum with
  | start => cases herror
  | group _ | call _ =>
    cases herror
    exact ⟨_, @blames_unclosed _ located [] _ hgroups⟩

end Reading

namespace Awaits

/-- If nothing waits nothing has been read. -/
theorem eq_nil_of_waiting {category : Category} {beside : Bool} {ts : List Token}
    {operands : List SyntaxTree} (h : Awaits category beside ts operands []) :
    ts = [] ∧ operands = [] := by
  generalize hwaiting : ([] : List Located) = waiting at h
  induction h with
  | start => exact ⟨rfl, rfl⟩
  | product _ ih | factor _ ih => exact ih hwaiting
  | _ => cases hwaiting

end Awaits

/-- A token that can make a product does not look like the sign of one. -/
theorem Token.symbol_ne_of_juxtaposes {token : Token} {rest : List Char}
    (h : token.TypedBefore rest) (hjuxtaposes : token.juxtaposes = true) : token.symbol ≠ "*" := by
  have hname {name : String} (h : IsName name) : name ≠ "*" := by
    rintro rfl
    obtain ⟨first, more, hstar, hfirst, -⟩ := h
    have hchars : ['*'] = first :: more := String.ofList_injective hstar
    obtain ⟨rfl, -⟩ := List.cons.inj hchars
    cases hfirst
  cases h with
  | opening | argument => decide
  | call h _ | constant h _ => exact hname h
  | closing | negation | power | number _ _ | stray => cases hjuxtaposes
  | adds h | scales h => cases h <;> cases hjuxtaposes

namespace SyntaxTree

open Reading

variable {text : String} {error : SyntaxError}

/-- A text that has no tree has no tokens, or one of them is to blame. -/
theorem exists_blames_of_ofText (h : ofText text = .error error) :
    ((Lexed.ofText text).located = [] ∧ error = ⟨0, .emptyExpression⟩) ∨
      ∃ blamed, error.Blames (Lexed.ofText text).located blamed := by
  rcases bind_eq_error_iff.mp h with hrun | ⟨reading, hrun, hfinish⟩
  · obtain ⟨before, next, after, reading, hlocated, hbefore, hstep⟩ :=
      exists_of_foldlM_eq_error hrun
    have haccounts : Accounts before reading := accounts_start.run hbefore
    have hreached := reached_of_located hlocated hbefore
    rw [hlocated]
    right
    generalize before.map Located.token = tokens at hreached
    cases hreached with
    | due _ | called _ => exact haccounts.exists_blames_due rfl hstep
    | ended hawaits hu hbeside =>
      refine haccounts.exists_blames_ended hawaits hu hbeside (fun symbol hsymbol => ?_) hstep
      refine (typed_tokens_ofText text).binary symbol ?_
      rw [← hsymbol, Lexed.tokens, hlocated]
      simp
  · have haccounts : Accounts (Lexed.ofText text).located reading := accounts_start.run hrun
    -- All tokens are read, so the error is about what waits at the end.
    have hreached := reached_of_located (List.append_nil _).symm hrun
    generalize htokens : (Lexed.ofText text).located.map Located.token = tokens at hreached
    cases hreached with
    | @due _ operands waiting hawaits =>
      cases waiting with
      | nil =>
        obtain ⟨hnil, rfl⟩ := hawaits.eq_nil_of_waiting
        cases hfinish
        exact .inl ⟨List.map_eq_nil_iff.mp (htokens.trans hnil), rfl⟩
      | cons top waiting =>
        cases hfinish
        exact .inr (haccounts.exists_blames_end rfl (List.cons_ne_nil _ _))
    | called _ =>
      cases hfinish
      exact .inr (haccounts.exists_blames_end rfl (List.cons_ne_nil _ _))
    | ended hawaits hu hbeside =>
      exact .inr (haccounts.exists_blames_unclosed hawaits hu hbeside hfinish)

/-- A text without tokens is empty, and its error stands at the start. Any other
error stands at the one token that it is about, and none is about a product that
is only implied: where the token stands that implies it, no sign is named. -/
theorem ofText_error_blames (h : ofText text = .error error) :
    (error.fault = .emptyExpression ↔ (Lexed.ofText text).located = []) ∧
      (error.fault = .emptyExpression → error.position = 0) ∧
      (error.fault ≠ .emptyExpression → ∃ blamed,
        error.Blames (Lexed.ofText text).located blamed ∧
          ∀ other ∈ (Lexed.ofText text).located, other.position = error.position →
            other = blamed) ∧
      ∀ next ∈ (Lexed.ofText text).located, next.token.juxtaposes = true →
        next.position = error.position → error.fault.symbol? ≠ some "*" := by
  rcases exists_blames_of_ofText h with ⟨hnil, rfl⟩ | ⟨blamed, hblames⟩
  · rw [hnil]
    simp
  · have hunique (other : Located) (hother : other ∈ (Lexed.ofText text).located)
        (hposition : other.position = error.position) : other = blamed :=
      Lexed.eq_of_position_eq hother hblames.mem (hposition.trans hblames.position_eq.symm)
    have hne : (Lexed.ofText text).located ≠ [] := List.ne_nil_of_mem hblames.mem
    refine ⟨iff_of_false hblames.fault_ne hne, fun hempty => absurd hempty hblames.fault_ne,
      fun _ => ⟨blamed, hblames, hunique⟩, ?_⟩
    intro next hnext hjuxtaposes hposition hsymbol
    obtain rfl := hunique next hnext hposition
    have hmem : next.token ∈ Lexeme.tokensFrom none text.toList := by
      rw [← Lexed.tokens_ofText]
      exact List.mem_map_of_mem hnext
    obtain ⟨rest, htyped⟩ := Lexeme.exists_typedBefore hmem
    exact Token.symbol_ne_of_juxtaposes htyped hjuxtaposes (hblames.symbol "*" hsymbol)

/-- In `2(x*` the sign of a product is blamed, the one that is written. -/
theorem ofText_error_blames_openProduct :
    ofText "2(x*" = .error ⟨3, .missingOperand "*"⟩ ∧
      (∃ blamed, SyntaxError.Blames ⟨3, .missingOperand "*"⟩ (Lexed.ofText "2(x*").located blamed ∧
        ∀ other ∈ (Lexed.ofText "2(x*").located, other.position = 3 → other = blamed) ∧
      ∀ next ∈ (Lexed.ofText "2(x*").located, next.token.juxtaposes = true → next.position ≠ 3 := by
  have herror : ofText "2(x*" = .error ⟨3, .missingOperand "*"⟩ := by
    decide +kernel
  obtain ⟨-, -, hblames, himplied⟩ := ofText_error_blames herror
  exact ⟨herror, hblames (by decide), fun next hnext hjuxtaposes hposition =>
    himplied next hnext hjuxtaposes hposition rfl⟩

end SyntaxTree

end FormulaCalculator
