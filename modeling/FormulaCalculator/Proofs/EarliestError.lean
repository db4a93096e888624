import FormulaCalculator.Proofs.JoinedTexts
import FormulaCalculator.Proofs.ReadingSoundness

/-!
# Errors come as early as they can

Whatever has been read without an error can go on to a formula: behind an operand,
or behind `x` where one is due, the closing parentheses of the open groups are all
that is missing. So an error at a token means that no text starts with these tokens
and is accepted, and one at the end that the text was only too short.
-/

set_option autoImplicit false

namespace FormulaCalculator

/-- Only closing parentheses are missing behind the tokens. -/
def LacksClosings (tokens : List Token) : Prop :=
  ∃ missing t, Derives .sum (tokens ++ List.replicate missing .closing) t

/-- Every group of a part is closed. -/
theorem Derives.count_closing {category : Category} {tokens : List Token} {t : SyntaxTree}
    (h : Derives category tokens t) : tokens.count .closing = tokens.count .opening := by
  induction h with
  | product _ ih | factor _ ih | primary _ ih => exact ih
  | added _ hsign _ ih ih' | scaled _ hsign _ ih ih' =>
    cases hsign <;> simp [ih, ih']
  | juxtaposed _ _ _ ih ih' | power _ _ ih ih' => simp [ih, ih']
  | negated _ ih => simpa using ih
  | @leaf token htoken => cases token <;> simp [Token.isOperand] at htoken ⊢
  | call _ ih | group _ ih => simp [ih]

namespace Awaits

variable {category : Category} {beside : Bool} {ts : List Token} {operands : List SyntaxTree}
  {waiting : List Located}

/-- Only a factor is due side by side with another one. -/
theorem beside_eq_false (h : Awaits category beside ts operands waiting)
    (hcategory : category ≠ .factor) : beside = false := by
  induction h with
  | product _ ih => exact ih (by simp)
  | start | group _ | call _ | added _ _ _ => rfl
  | _ => exact absurd rfl hcategory

/-- Behind a part that was due only closing parentheses are missing. -/
theorem lacksClosings (h : Awaits category beside ts operands waiting) :
    ∀ {us : List Token} {u : SyntaxTree}, Derives category us u →
      (beside = true → us.head?.any Token.juxtaposes = true) → LacksClosings (ts ++ us) := by
  induction h with
  | start =>
    intro us u hu _
    refine ⟨0, u, ?_⟩
    simpa using hu
  | group _ ih =>
    intro us u hu _
    obtain ⟨missing, t, ht⟩ := ih (.primary (.group hu)) fun _ => rfl
    refine ⟨missing + 1, t, ?_⟩
    simpa [List.replicate_succ] using ht
  | call _ ih =>
    intro us u hu _
    obtain ⟨missing, t, ht⟩ := ih (.primary (.call hu)) fun _ => rfl
    refine ⟨missing + 1, t, ?_⟩
    simpa [List.replicate_succ] using ht
  | product _ ih => exact fun hu hbeside => ih (.product hu) hbeside
  | added h ht hsign ih =>
    intro us u hu _
    have hbeside := h.beside_eq_false (by simp)
    have hall := ih (.added ht hsign hu) (by simp [hbeside])
    simpa using hall
  | factor _ ih => exact fun hu hbeside => ih (.factor hu) hbeside
  | scaled h ht hsign ih =>
    intro us u hu _
    have hbeside := h.beside_eq_false (by simp)
    have hall := ih (.scaled ht hsign hu) (by simp [hbeside])
    simpa using hall
  | juxtaposed h ht ih =>
    -- A factor that stands side by side with another one has to start like one.
    intro us u hu hhead
    have hbeside := h.beside_eq_false (by simp)
    have hall := ih (.juxtaposed ht hu (hhead rfl)) (by simp [hbeside])
    simpa using hall
  | negated _ ih =>
    intro us u hu _
    have hall := ih (.negated hu) (by simp)
    simpa using hall
  | power _ ht hhead ih =>
    intro us u hu _
    have hall := ih (.power ht hu) fun hbeside => Reading.head?_any_append (hhead hbeside)
    simpa using hall

end Awaits

namespace Lexeme

/-- What is written behind a text to go on to a formula: an operand if one is due,
and closing parentheses. -/
def completion (operandDue : Bool) (missing : Nat) : List Char :=
  (if operandDue then argumentName.toList else []) ++ List.replicate missing ')'

/-- The tokens that complete a formula. -/
def completionTokens (operandDue : Bool) (missing : Nat) : List Token :=
  (if operandDue then [.argument argumentName] else []) ++ List.replicate missing .closing

/-- What is missing is the operand that may be due, and then only closing parentheses. -/
theorem completionTokens_zero_append (operandDue : Bool) (missing : Nat) :
    completionTokens operandDue 0 ++ List.replicate missing .closing =
      completionTokens operandDue missing := by
  rw [completionTokens, List.replicate_zero, List.append_nil]
  rfl

/-- A completion closes as many groups as are open and opens none. -/
theorem count_completionTokens (operandDue : Bool) (missing : Nat) :
    (completionTokens operandDue missing).count .closing = missing ∧
      (completionTokens operandDue missing).count .opening = 0 := by
  cases operandDue <;> simp [completionTokens, List.count_replicate]

/-- A row of closing parentheses is read as one token each. -/
theorem tokensFrom_closings (previous : Option Token) (missing : Nat) :
    tokensFrom previous (List.replicate missing ')') = List.replicate missing .closing := by
  induction missing generalizing previous with
  | zero => exact tokensFrom_of_blank rfl
  | succ missing ih => rw [List.replicate_succ, List.replicate_succ, tokensFrom_closing, ih]

/-- The text of a completion is read as the tokens that are missing. -/
theorem tokensFrom_completion (previous : Option Token) (operandDue : Bool) (missing : Nat) :
    tokensFrom previous (completion operandDue missing) =
      completionTokens operandDue missing := by
  have hrest : FollowsPart (List.replicate missing ')') := by
    intro c hc
    exact .inr (List.eq_of_mem_replicate (List.mem_of_mem_head? hc))
  cases operandDue with
  | true =>
    simp only [completion, completionTokens, if_true]
    rw [tokensFrom_argument hrest, tokensFrom_closings]
    rfl
  | false => exact tokensFrom_closings previous missing

end Lexeme

namespace Reading

/-- Where a formula has been read up to the end of a text, an operand may be missing
and the closing parentheses of all open groups, and nothing else. -/
theorem Reached.exists_derives {tokens : List Token} {reading : Reading}
    (h : Reached tokens reading) (htyped : Typed tokens) :
    ∃ t, Derives .sum (tokens ++ Lexeme.completionTokens reading.operandDue
      (tokens.count .opening - tokens.count .closing)) t := by
  have hlacks : LacksClosings (tokens ++ Lexeme.completionTokens reading.operandDue 0) := by
    cases h with
    | due hawaits =>
      exact hawaits.lacksClosings (.primary (@Derives.leaf (.argument argumentName) rfl)) (by simp)
    | @called _ ts _ _ name _ _ =>
      cases htyped.call ts name [] rfl
    | ended hawaits hu hbeside =>
      simp only [Lexeme.completionTokens, Bool.false_eq_true, if_false, List.replicate_zero,
        List.append_nil]
      exact hawaits.lacksClosings (.primary hu) hbeside
  obtain ⟨missing, t, ht⟩ := hlacks
  rw [List.append_assoc, Lexeme.completionTokens_zero_append] at ht
  have hmissing : missing = tokens.count .opening - tokens.count .closing := by
    have hcount := ht.count_closing
    obtain ⟨hclosing, hopening⟩ := Lexeme.count_completionTokens reading.operandDue missing
    rw [List.count_append, List.count_append] at hcount
    omega
  rw [← hmissing]
  exact ⟨t, ht⟩

end Reading

namespace SyntaxTree

variable {text other : String} {t : SyntaxTree} {error : SyntaxError} {before : List Located}

/-- What an accepted text starts with is read without an error, wherever the tokens
stand. -/
theorem exists_reading_of_prefix (h : ofText other = .ok t)
    (hfront : before.map Located.token <+: (Lexed.ofText other).tokens) :
    ∃ reading, before.foldlM Reading.step .start = .ok reading := by
  obtain ⟨rest, hrest⟩ := hfront
  have htokens : (before ++ rest.map (Located.mk 0)).map Located.token =
      (Lexed.ofText other).tokens := by
    rw [← hrest, List.map_append, List.map_map]
    exact congrArg _ (List.map_id rest)
  obtain ⟨operands, pending, hread, -⟩ :=
    (derives_of_ofText h).readsAs htokens [] Reading.below_nil
  rw [List.foldlM_append] at hread
  obtain ⟨reading, hbefore, -⟩ := bind_eq_ok_iff.mp hread
  exact ⟨reading, hbefore⟩

/-- A text that could be read up to its end can be completed. -/
theorem exists_completion {reading : Reading}
    (hrun : (Lexed.ofText text).located.foldlM Reading.step .start = .ok reading) :
    ∃ other t, ofText other = .ok t ∧ (Lexed.ofText other).tokens =
      (Lexed.ofText text).tokens ++ Lexeme.completionTokens reading.operandDue
        ((Lexed.ofText text).tokens.count .opening -
          (Lexed.ofText text).tokens.count .closing) := by
  have hreached : Reading.Reached (Lexed.ofText text).tokens reading :=
    reached_of_located (List.append_nil _).symm hrun
  obtain ⟨t, ht⟩ := hreached.exists_derives (typed_tokens_ofText text)
  generalize (Lexed.ofText text).tokens.count .opening -
    (Lexed.ofText text).tokens.count .closing = missing at ht ⊢
  obtain ⟨last, hlast⟩ := Lexeme.exists_tokensFrom_append_blank none text.toList
    (Lexeme.completion reading.operandDue missing)
  rw [Lexeme.tokensFrom_completion, ← Lexed.tokens_ofText] at hlast
  refine ⟨String.ofList (text.toList ++ ' ' :: Lexeme.completion reading.operandDue missing), t,
    ofText_of_derives ?_, ?_⟩ <;> rw [Lexed.tokens_ofText, String.toList_ofList, hlast]
  exact ht

/-- An error at a token comes with the first tokens that no accepted text starts
with. An error at the end comes where the text could go on to one that is accepted,
with an operand if one is due and then the closing parentheses that are missing. -/
theorem ofText_error_earliest (h : ofText text = .error error) :
    (∃ before next after reading, (Lexed.ofText text).located = before ++ next :: after ∧
        before.foldlM Reading.step .start = .ok reading ∧ reading.step next = .error error ∧
        ∀ other, (before ++ [next]).map Located.token <+: (Lexed.ofText other).tokens →
          ∃ error', ofText other = .error error') ∨
      ∃ reading, (Lexed.ofText text).located.foldlM Reading.step .start = .ok reading ∧
        reading.finish text.length = .error error ∧
        ∃ other t, ofText other = .ok t ∧ (Lexed.ofText other).tokens =
          (Lexed.ofText text).tokens ++ Lexeme.completionTokens reading.operandDue
            ((Lexed.ofText text).tokens.count .opening -
              (Lexed.ofText text).tokens.count .closing) := by
  rcases bind_eq_error_iff.mp h with hrun | ⟨reading, hrun, hfinish⟩
  · obtain ⟨before, next, after, reading, hlocated, hbefore, hstep⟩ :=
      exists_of_foldlM_eq_error hrun
    refine .inl ⟨before, next, after, reading, hlocated, hbefore, hstep, fun other hfront => ?_⟩
    cases hother : ofText other with
    | error error' => exact ⟨error', rfl⟩
    | ok t =>
      obtain ⟨last, hlast⟩ := exists_reading_of_prefix hother hfront
      rw [List.foldlM_append, hbefore, ok_bind, List.foldlM_cons, hstep] at hlast
      cases hlast
  · exact .inr ⟨reading, hrun, hfinish, exists_completion hrun⟩

/-- The text `-(x+sin(` is too short: an operand and two parentheses are missing. The
text `x(x*)` goes wrong at the parenthesis that closes it, whatever would follow. -/
theorem ofText_error_earliest_openCall :
    (ofText "-(x+sin(" = .error ⟨4, .missingOperand "sin"⟩ ∧
      ∃ other t, ofText other = .ok t ∧ (Lexed.ofText other).tokens =
        (Lexed.ofText "-(x+sin(").tokens ++ [.argument argumentName, .closing, .closing]) ∧
    (ofText "x(x*)" = .error ⟨3, .missingOperand "*"⟩ ∧
      ∀ other, (Lexed.ofText "x(x*)").tokens <+: (Lexed.ofText other).tokens →
        ∃ error, ofText other = .error error) := by
  constructor
  · have herror : ofText "-(x+sin(" = .error ⟨4, .missingOperand "sin"⟩ := by
      decide +kernel
    have hread : (Lexed.ofText "-(x+sin(").located.foldlM Reading.step .start =
        .ok ⟨[.leaf (.argument "x")], [⟨7, .opening⟩, ⟨4, .call "sin"⟩, ⟨3, .binary "+"⟩,
          ⟨1, .opening⟩, ⟨0, .unary "-"⟩], true⟩ := by
      decide +kernel
    have hmissing : (Lexed.ofText "-(x+sin(").tokens.count .opening -
        (Lexed.ofText "-(x+sin(").tokens.count .closing = 2 := by
      decide +kernel
    refine ⟨herror, ?_⟩
    rcases ofText_error_earliest herror with
      ⟨before, next, after, reading, hlocated, hbefore, hstep, -⟩ | ⟨reading, hrun, -, hother⟩
    · rw [hlocated, List.foldlM_append, hbefore, ok_bind, List.foldlM_cons, hstep] at hread
      cases hread
    · cases hread.symm.trans hrun
      rwa [hmissing] at hother
  · have herror : ofText "x(x*)" = .error ⟨3, .missingOperand "*"⟩ := by
      decide +kernel
    have hread : (Lexed.ofText "x(x*)").located.foldlM Reading.step .start =
        .error ⟨3, .missingOperand "*"⟩ := by
      decide +kernel
    have hfirst : ((Lexed.ofText "x(x*)").located.dropLast.foldlM Reading.step .start).isOk =
        true := by
      decide +kernel
    refine ⟨herror, ?_⟩
    rcases ofText_error_earliest herror with
      ⟨before, next, after, reading, hlocated, hbefore, hstep, hreject⟩ | ⟨reading, hrun, -, -⟩
    · rcases List.eq_nil_or_concat after with rfl | ⟨after, last, rfl⟩
      · intro other hfront
        apply hreject other
        rwa [← hlocated]
      · -- An earlier token is not the one: all the tokens before the last can be read.
        rw [hlocated, List.concat_eq_append, ← List.cons_append, ← List.append_assoc,
          List.dropLast_concat, List.foldlM_append, hbefore, ok_bind, List.foldlM_cons,
          hstep] at hfirst
        cases hfirst
    · cases hread.symm.trans hrun

end SyntaxTree

end FormulaCalculator
