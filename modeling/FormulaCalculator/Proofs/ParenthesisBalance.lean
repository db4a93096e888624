import FormulaCalculator.Proofs.ShuntingYard

/-!
# What postfix order keeps of any tokens

Tokens can be brought into postfix order in whatever order they come, as long as
each of them has a place in some expression. The parentheses alone decide: if they
are balanced there is a postfix order, else the fault is theirs. The postfix order
has the tokens that are no parentheses, each as often as it came.

The groups that are open are the opening parentheses among the tokens that wait.
So one step says how their number changes, and a run is an induction over the
tokens for everything that can wait.
-/

set_option autoImplicit false

namespace FormulaCalculator

namespace Token

/-- Whether a token has a place in an expression: it is no stray text, and the
table has it if it is an operator. -/
def isKnown : Token → Bool
  | .stray _ => false
  | .unary symbol => (Operator.find? symbol .unary).isSome
  | .binary symbol => (Operator.find? symbol .binary).isSome
  | _ => true

/-- Whether a token is a parenthesis. -/
def isParenthesis : Token → Bool
  | .opening | .closing => true
  | _ => false

/-- Whether the tokens close so many groups that are open before them and all that
they open, and none besides. -/
def closesGroups : Nat → List Token → Bool
  | depth, [] => depth == 0
  | depth, .opening :: tokens => closesGroups (depth + 1) tokens
  | 0, .closing :: _ => false
  | depth + 1, .closing :: tokens => closesGroups depth tokens
  | depth, _ :: tokens => closesGroups depth tokens

/-- Nowhere have more groups been closed than opened, and at the end as many. -/
structure Balanced (tokens : List Token) : Prop where
  front : ∀ front, front <+: tokens → front.count .closing ≤ front.count .opening
  total : tokens.count .closing = tokens.count .opening

variable {tokens waiting : List Token} {token : Token} {depth : Nat}

/-- A token that is no parenthesis opens and closes nothing. -/
theorem closesGroups_of_not_isParenthesis (h : token.isParenthesis = false) :
    closesGroups depth (token :: tokens) = closesGroups depth tokens := by
  cases token with
  | opening | closing => cases h
  | _ => rfl

/-- Counting from front to end is the same as keeping the number of open groups. -/
theorem closesGroups_iff : closesGroups depth tokens = true ↔
    (∀ front, front <+: tokens → front.count .closing ≤ depth + front.count .opening) ∧
      tokens.count .closing = depth + tokens.count .opening := by
  induction tokens generalizing depth with
  | nil =>
    simp only [closesGroups, beq_iff_eq, List.prefix_nil, forall_eq, List.count_nil]
    omega
  | cons token tokens ih =>
    -- The fronts of a longer list are the empty one and those of the rest, each with the token.
    have hcons (p : List Token → Prop) (hnil : p []) :
        (∀ front, front <+: token :: tokens → p front) ↔
          ∀ front, front <+: tokens → p (token :: front) := by
      simp only [List.prefix_cons_iff]
      constructor
      · intro h front hfront
        exact h _ (.inr ⟨front, rfl, hfront⟩)
      · rintro h front (rfl | ⟨rest, rfl, hrest⟩)
        · exact hnil
        · exact h rest hrest
    rw [hcons _ (by simp)]
    cases token with
    | opening =>
      rw [closesGroups, ih]
      simp only [List.count_cons_self, List.count_cons_of_ne (by decide : Token.opening ≠ .closing)]
      refine and_congr (forall_congr' fun front => imp_congr_right fun _ => ?_) ?_ <;> omega
    | closing =>
      cases depth with
      | zero =>
        simp only [closesGroups, Bool.false_eq_true, false_iff, not_and]
        intro h
        have hfirst := h [] List.nil_prefix
        simp at hfirst
      | succ depth =>
        rw [closesGroups, ih]
        simp only [List.count_cons_self,
          List.count_cons_of_ne (by decide : Token.closing ≠ .opening)]
        refine and_congr (forall_congr' fun front => imp_congr_right fun _ => ?_) ?_ <;> omega
    | _ =>
      rw [closesGroups_of_not_isParenthesis rfl, ih]
      simp

/-- To close all that is opened, with no group open before, is to be balanced. -/
theorem closesGroups_zero_iff : closesGroups 0 tokens = true ↔ Balanced tokens := by
  rw [closesGroups_iff]
  simp only [Nat.zero_add]
  exact ⟨fun h => ⟨h.1, h.2⟩, fun h => ⟨h.front, h.total⟩⟩

instance : Decidable (Balanced tokens) := decidable_of_iff _ closesGroups_zero_iff

end Token

namespace Postfix

open Token

variable {waiting tokens out : List Token} {token : Token} {s : Step}

/-- A token that waits: an operator, or a parenthesis that was opened. -/
def Waits (token : Token) : Prop := token = .opening ∨ ∃ op, token.operator? = some op

/-- A closing parenthesis never waits. -/
theorem Waits.ne_closing (h : Waits token) : token ≠ .closing := by
  rintro rfl
  rcases h with h | ⟨op, h⟩ <;> cases h

/-- The only parenthesis that waits is an opening one. -/
theorem Waits.isParenthesis_eq_false (h : Waits token) (hne : token ≠ .opening) :
    token.isParenthesis = false := by
  have hclosing := h.ne_closing
  cases token with
  | opening => exact absurd rfl hne
  | closing => exact absurd rfl hclosing
  | _ => rfl

/-- Operators of the table go out before another one, and a parenthesis stops them. -/
theorem exists_yieldTo (op : Operator) (hwaiting : ∀ token ∈ waiting, Waits token) :
    ∃ s, yieldTo op waiting = .ok s ∧ .opening ∉ s.out := by
  induction waiting with
  | nil => exact ⟨⟨[], []⟩, rfl, by simp⟩
  | cons top waiting ih =>
    obtain ⟨htop, hwaiting⟩ := List.forall_mem_cons.mp hwaiting
    rcases htop with rfl | ⟨other, hother⟩
    · exact ⟨⟨[], .opening :: waiting⟩, rfl, by simp⟩
    · rw [yieldTo_cons hother]
      split
      · obtain ⟨s, hs, hopen⟩ := ih hwaiting
        refine ⟨s.after top, by rw [hs]; rfl, ?_⟩
        rw [Step.after, List.mem_cons, not_or]
        refine ⟨?_, hopen⟩
        rintro rfl
        cases hother
      · exact ⟨⟨[], top :: waiting⟩, rfl, by simp⟩

/-- A closing parenthesis for which no opening one waits has no match. -/
theorem closeGroup_of_not_mem (h : .opening ∉ waiting) :
    closeGroup waiting = .error .parenthesisMismatch := by
  induction waiting with
  | nil => rfl
  | cons top waiting ih =>
    rw [List.mem_cons, not_or] at h
    rw [closeGroup_cons_of_ne (Ne.symm h.1), ih h.2]
    rfl

/-- An opening parenthesis that still waits at the end has no match. -/
theorem flush_of_mem (h : .opening ∈ waiting) : flush waiting = .error .parenthesisMismatch := by
  induction waiting with
  | nil => cases h
  | cons top waiting ih =>
    by_cases htop : top = .opening
    · subst htop
      rfl
    · have hrest := ih ((List.mem_cons.mp h).resolve_left (Ne.symm htop))
      rw [flush_cons_of_ne htop, hrest]
      rfl

/-- Completing a group adds nothing but the operator in front of it. -/
theorem mem_out_completeGroup (h : token ∈ (completeGroup s).out) :
    token ∈ s.out ∨ token.isParenthesis = false := by
  unfold completeGroup at h
  split at h
  · rcases List.mem_append.mp h with hout | hlast
    · exact .inl hout
    · obtain rfl := List.mem_singleton.mp hlast
      exact .inr rfl
  · rcases List.mem_append.mp h with hout | hlast
    · exact .inl hout
    · obtain rfl := List.mem_singleton.mp hlast
      exact .inr rfl
  · exact .inl h

/-- What a token does to the tokens that wait, up to their order. It joins those
that go out and wait, or it takes an opening parenthesis from them, which has to
be there. -/
inductive Moves (waiting : List Token) : Token → Except CalculationError Step → Prop where
  | joins {token : Token} {s : Step} : token ≠ .closing →
      (∀ other ∈ s.out, other.isParenthesis = false) → (∀ other ∈ s.waiting, Waits other) →
      (s.out ++ s.waiting).Perm (token :: waiting) → Moves waiting token (.ok s)
  | closes {s : Step} : (∀ other ∈ s.out, other.isParenthesis = false) →
      (∀ other ∈ s.waiting, Waits other) →
      (s.out ++ .opening :: s.waiting).Perm waiting → Moves waiting .closing (.ok s)
  | unopened : .opening ∉ waiting → Moves waiting .closing (.error .parenthesisMismatch)

/-- A token that goes to those that wait and brings none out moves nothing else. -/
theorem moves_waiting (hwaiting : ∀ token ∈ waiting, Waits token) (htoken : Waits token)
    (hstep : step waiting token = .ok ⟨[], token :: waiting⟩) :
    Moves waiting token (step waiting token) := by
  rw [hstep]
  exact .joins htoken.ne_closing (by simp) (List.forall_mem_cons.mpr ⟨htoken, hwaiting⟩)
    (List.Perm.refl _)

/-- A closing parenthesis brings out what waits above an opening one, which it takes away,
or there is none. -/
theorem moves_closing (hwaiting : ∀ token ∈ waiting, Waits token) :
    Moves waiting .closing (step waiting .closing) := by
  by_cases hmem : .opening ∈ waiting
  · obtain ⟨inside, outside, rfl, hinside⟩ := List.eq_append_cons_of_mem hmem
    obtain ⟨hwaits, hbelow⟩ := List.forall_mem_append.mp hwaiting
    obtain ⟨-, houtside⟩ := List.forall_mem_cons.mp hbelow
    have hflow := out_append_waiting_completeGroup ⟨inside, outside⟩
    rw [step_closing hinside]
    refine .closes (fun other hother => ?_) (fun other hother => ?_) ?_
    · rcases mem_out_completeGroup hother with hout | hno
      · refine (hwaits other hout).isParenthesis_eq_false ?_
        rintro rfl
        exact hinside hout
      · exact hno
    · have hmem' := List.mem_append_right (completeGroup ⟨inside, outside⟩).out hother
      rw [hflow, List.mem_append] at hmem'
      exact hmem'.elim (hwaits other) (houtside other)
    · refine List.perm_middle.trans ?_
      rw [hflow]
      exact List.perm_middle.symm
  · have hclose := closeGroup_of_not_mem hmem
    rw [step, hclose]
    exact .unopened hmem

/-- An operator between operands brings out what goes before it and waits then. -/
theorem moves_binary {symbol : String} (hwaiting : ∀ token ∈ waiting, Waits token)
    (hknown : (Token.binary symbol).isKnown = true) :
    Moves waiting (.binary symbol) (step waiting (.binary symbol)) := by
  obtain ⟨op, hop⟩ := Option.isSome_iff_exists.mp hknown
  obtain ⟨s, hs, hopen⟩ := exists_yieldTo op hwaiting
  have hflow := out_append_waiting_of_yieldTo hs
  rw [← hflow] at hwaiting
  obtain ⟨hout, hrest⟩ := List.forall_mem_append.mp hwaiting
  have hstep : step waiting (.binary symbol) = .ok ⟨s.out, .binary symbol :: s.waiting⟩ := by
    simp [step, Token.operator?, hop, hs]
  rw [hstep]
  refine .joins (by simp) (fun other hother => ?_) (List.forall_mem_cons.mpr ⟨?_, hrest⟩) ?_
  · refine (hout other hother).isParenthesis_eq_false ?_
    rintro rfl
    exact hopen hother
  · exact .inr ⟨op, hop⟩
  · refine List.perm_middle.trans ?_
    rw [hflow]

/-- Every step on known tokens is one of these. -/
theorem moves (hwaiting : ∀ token ∈ waiting, Waits token) (hknown : token.isKnown = true) :
    Moves waiting token (step waiting token) := by
  cases token with
  | stray lexeme => cases hknown
  | number _ | argument _ | constant _ =>
    exact .joins (by simp) (by simp [isParenthesis]) hwaiting (List.Perm.refl _)
  | opening => exact moves_waiting hwaiting (.inl rfl) rfl
  | unary symbol =>
    exact moves_waiting hwaiting (.inr (Option.isSome_iff_exists.mp hknown)) rfl
  | call name =>
    obtain ⟨op, hop, -⟩ := exists_operator?_call name
    exact moves_waiting hwaiting (.inr ⟨op, hop⟩) rfl
  | binary symbol => exact moves_binary hwaiting hknown
  | closing => exact moves_closing hwaiting

/-- The tokens that are no parentheses. -/
def withoutParentheses (tokens : List Token) : List Token := tokens.filter (!·.isParenthesis)

/-- Where there is no parenthesis, none is taken out. -/
theorem withoutParentheses_eq_self (h : ∀ token ∈ tokens, token.isParenthesis = false) :
    withoutParentheses tokens = tokens :=
  List.filter_eq_self.mpr fun token hmem => by rw [h token hmem]; rfl

/-- What goes out first goes in front of the rest, if it has no parentheses. -/
theorem perm_withoutParentheses_append {rest : List Token}
    (hout : ∀ token ∈ out, token.isParenthesis = false)
    (h : rest.Perm (withoutParentheses tokens)) :
    (out ++ rest).Perm (withoutParentheses (out ++ tokens)) := by
  have hsplit : withoutParentheses (out ++ tokens) = out ++ withoutParentheses tokens := by
    rw [withoutParentheses, List.filter_append, ← withoutParentheses, ← withoutParentheses,
      withoutParentheses_eq_self hout]
  rw [hsplit]
  exact h.append_left out

/-- Where there is no parenthesis, none is counted. -/
theorem count_opening_eq_zero (h : ∀ token ∈ tokens, token.isParenthesis = false) :
    tokens.count .opening = 0 := by
  rw [List.count_eq_zero]
  intro hmem
  cases h _ hmem

/-- A token that waits makes one more open group if it is an opening parenthesis. -/
theorem closesGroups_cons (hne : token ≠ .closing) :
    closesGroups (waiting.count .opening) (token :: tokens) =
      closesGroups ((token :: waiting).count .opening) tokens := by
  cases token with
  | closing => exact absurd rfl hne
  | opening => rw [closesGroups, List.count_cons_self]
  | _ => rw [closesGroups_of_not_isParenthesis rfl, List.count_cons_of_ne (by simp)]

/-- Known tokens have a postfix order exactly if they close the groups that are
open, and it has all of them that are no parentheses. -/
theorem arrange_cases (hwaiting : ∀ token ∈ waiting, Waits token)
    (hknown : ∀ token ∈ tokens, token.isKnown = true) :
    (closesGroups (waiting.count .opening) tokens = true ∧
      ∃ out, arrange waiting tokens = .ok out ∧
        out.Perm (withoutParentheses (waiting ++ tokens))) ∨
    (closesGroups (waiting.count .opening) tokens = false ∧
      arrange waiting tokens = .error .parenthesisMismatch) := by
  induction tokens generalizing waiting with
  | nil =>
    rw [List.append_nil]
    by_cases hmem : .opening ∈ waiting
    · refine .inr ⟨?_, flush_of_mem hmem⟩
      have hpos := List.count_pos_iff.mpr hmem
      simp only [closesGroups, beq_eq_false_iff_ne]
      omega
    · refine .inl ⟨by simp [closesGroups, List.count_eq_zero.mpr hmem], waiting,
        flush_eq_ok_iff.mpr ⟨rfl, hmem⟩, ?_⟩
      rw [withoutParentheses_eq_self]
      intro token htoken
      refine (hwaiting token htoken).isParenthesis_eq_false ?_
      rintro rfl
      exact hmem htoken
  | cons token tokens ih =>
    obtain ⟨htoken, hrestKnown⟩ := List.forall_mem_cons.mp hknown
    -- The number of open groups follows from how the token moves: it changes only if
    -- an opening parenthesis comes to wait or is taken away.
    have hmoves := moves hwaiting htoken
    generalize hstep : step waiting token = result at hmoves
    cases hmoves with
    | @joins _ s hne hout hrest hperm =>
      have hcount := hperm.count_eq .opening
      rw [List.count_append, count_opening_eq_zero hout, Nat.zero_add] at hcount
      rw [closesGroups_cons hne, ← hcount]
      rcases ih hrest hrestKnown with ⟨hcloses, rest, hrun, hrestPerm⟩ | ⟨hcloses, herror⟩
      · refine .inl ⟨hcloses, s.out ++ rest, by simp [arrange, hstep, hrun], ?_⟩
        refine (perm_withoutParentheses_append hout hrestPerm).trans (List.Perm.filter _ ?_)
        rw [← List.append_assoc]
        exact (hperm.append_right tokens).trans List.perm_middle.symm
      · exact .inr ⟨hcloses, by simp [arrange, hstep, herror]⟩
    | @closes s hout hrest hperm =>
      have hcount := hperm.count_eq .opening
      rw [List.count_append, count_opening_eq_zero hout, Nat.zero_add,
        List.count_cons_self] at hcount
      rw [← hcount, closesGroups]
      rcases ih hrest hrestKnown with ⟨hcloses, rest, hrun, hrestPerm⟩ | ⟨hcloses, herror⟩
      · refine .inl ⟨hcloses, s.out ++ rest, by simp [arrange, hstep, hrun], ?_⟩
        have hgroup : withoutParentheses (s.out ++ (s.waiting ++ tokens)) =
            withoutParentheses (s.out ++ .opening :: s.waiting ++ .closing :: tokens) := by
          simp [withoutParentheses, isParenthesis]
        have hall := perm_withoutParentheses_append hout hrestPerm
        rw [hgroup] at hall
        exact hall.trans (List.Perm.filter _ (hperm.append_right _))
      · exact .inr ⟨hcloses, by simp [arrange, hstep, herror]⟩
    | unopened hmem =>
      refine .inr ⟨?_, by simp [arrange, hstep]⟩
      rw [List.count_eq_zero.mpr hmem]
      rfl

/-- Known tokens have a postfix order exactly if their parentheses are balanced. -/
theorem ofTokens_cases (hknown : ∀ token ∈ tokens, token.isKnown = true) :
    (Balanced tokens ∧ ∃ expression, ofTokens tokens = .ok expression ∧
      expression.tokens.Perm (withoutParentheses tokens)) ∨
    (¬Balanced tokens ∧ ofTokens tokens = .error .parenthesisMismatch) := by
  rw [← closesGroups_zero_iff, Bool.not_eq_true, ofTokens]
  rcases @arrange_cases [] tokens (by simp) hknown with
    ⟨hcloses, out, hout, hperm⟩ | ⟨hcloses, herror⟩
  · exact .inl ⟨hcloses, ⟨out⟩, by rw [hout]; rfl, hperm⟩
  · exact .inr ⟨hcloses, by rw [herror]; rfl⟩

end Postfix

end FormulaCalculator
