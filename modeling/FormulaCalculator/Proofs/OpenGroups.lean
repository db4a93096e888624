import FormulaCalculator.Proofs.ParenthesisBalance
import Mathlib.Data.List.Induction

/-!
# Parentheses without a match

Two parentheses match if what stands between them is balanced. That a closing
parenthesis has no match in front of it, or an opening one none behind it, is said
by this alone. It can be told from the groups that are open: whoever reads the
tokens from the left keeps them on a stack, and the ones that are left on it are
the opening parentheses that nothing closes.
-/

set_option autoImplicit false

namespace FormulaCalculator

namespace Token

/-- None of the tokens is the match of a closing parenthesis behind them. -/
def Unopened (before : List Token) : Prop :=
  ∀ front inner, before = front ++ .opening :: inner → ¬ Balanced inner

/-- None of the tokens is the match of an opening parenthesis in front of them. -/
def Unclosed (after : List Token) : Prop :=
  ∀ inner rest, after = inner ++ .closing :: rest → ¬ Balanced inner

end Token

namespace Located

open Token

/-- Whether a token opens a group. -/
def opens (located : Located) : Bool :=
  match located.token with
  | .opening => true
  | _ => false

/-- The groups that are open behind one more token, the last one first; none if the
token closes a group and there is none. -/
def track (groups : List Located) (next : Located) : Option (List Located) :=
  match next.token, groups with
  | .opening, groups => some (next :: groups)
  | .closing, _ :: groups => some groups
  | .closing, [] => none
  | _, groups => some groups

/-- The groups that are open behind the tokens. -/
def openGroups (located : List Located) : Option (List Located) := located.foldlM track []

variable {located before after inner groups above below : List Located} {opened next : Located}
  {depth : Nat}

/-- Only an opening parenthesis opens a group. -/
theorem opens_eq_true_iff : opened.opens = true ↔ opened.token = .opening := by
  obtain ⟨position, token⟩ := opened
  cases token <;> simp [opens]

/-- A group is opened inside those that are open. -/
theorem track_opening (h : next.token = .opening) : track groups next = some (next :: groups) := by
  simp [track, h]

/-- A token that is no parenthesis opens and closes nothing. -/
theorem track_of_not_isParenthesis (h : next.token.isParenthesis = false) :
    track groups next = some groups := by
  obtain ⟨position, token⟩ := next
  cases token with
  | opening | closing => cases h
  | _ => rfl

/-- A closing parenthesis closes the group that was opened last. -/
theorem track_closing (h : next.token = .closing) :
    track (opened :: groups) next = some groups := by
  simp [track, h]

/-- A closing parenthesis with no open group has no match. -/
theorem track_closing_nil (h : next.token = .closing) : track [] next = none := by
  simp [track, h]

/-- What one token can do to the groups that are open. -/
theorem track_cases (h : track groups next = some above) :
    (next.token = .opening ∧ above = next :: groups) ∨
      (next.token = .closing ∧ ∃ last, groups = last :: above) ∨
      (next.token.isParenthesis = false ∧ above = groups) := by
  obtain ⟨position, token⟩ := next
  cases token with
  | opening => exact .inl ⟨rfl, (Option.some.inj h).symm⟩
  | closing =>
    cases groups with
    | nil => cases h
    | cons last groups =>
      obtain rfl : groups = above := Option.some.inj h
      exact .inr (.inl ⟨rfl, last, rfl⟩)
  | _ => exact .inr (.inr ⟨rfl, (Option.some.inj h).symm⟩)

/-- Balanced tokens leave the groups open that were open before them. -/
theorem foldlM_track_of_closesGroups
    (h : closesGroups above.length (inner.map Located.token) = true) :
    inner.foldlM track (above ++ groups) = some groups := by
  induction inner generalizing above with
  | nil =>
    obtain rfl : above = [] := by simpa [closesGroups] using h
    rfl
  | cons next inner ih =>
    obtain ⟨position, token⟩ := next
    rw [List.foldlM_cons]
    cases token with
    | opening => exact @ih (⟨position, .opening⟩ :: above) h
    | closing =>
      cases above with
      | nil => cases h
      | cons last above => exact ih h
    | _ =>
      rw [List.map_cons, closesGroups_of_not_isParenthesis rfl] at h
      exact ih h

/-- Balanced tokens leave the groups around them as they are. -/
theorem foldlM_track_of_balanced (h : Balanced (inner.map Located.token)) :
    inner.foldlM track groups = some groups :=
  @foldlM_track_of_closesGroups inner groups [] (closesGroups_zero_iff.mpr h)

/-- The open groups are tracked one token at a time. -/
theorem openGroups_append_singleton :
    openGroups (located ++ [next]) = (openGroups located).bind (track · next) := by
  rw [openGroups, List.foldlM_append]
  exact congrArg _ (funext fun groups => bind_pure _)

/-- A group on the stack was opened by a token, and the groups above it are those
that the tokens behind this one leave open. -/
theorem exists_of_openGroups (h : openGroups located = some (above ++ opened :: below)) :
    ∃ before after, located = before ++ opened :: after ∧ opened.token = .opening ∧
      openGroups after = some above := by
  induction located using List.reverseRecOn generalizing above with
  | nil => simp [openGroups] at h
  | append_singleton located next ih =>
    rw [openGroups_append_singleton, Option.bind_eq_some_iff] at h
    obtain ⟨groups, hgroups, htrack⟩ := h
    -- The group is open before the last token, unless this is the one that opens it.
    have hbehind {above' : List Located} (hopen : groups = above' ++ opened :: below)
        (hlast : track above' next = some above) :
        ∃ before after, located ++ [next] = before ++ opened :: after ∧
          opened.token = .opening ∧ openGroups after = some above := by
      obtain ⟨before, after, rfl, hopened, hafter⟩ := ih (hopen ▸ hgroups)
      refine ⟨before, after ++ [next], by simp, hopened, ?_⟩
      rw [openGroups_append_singleton, hafter]
      exact hlast
    rcases track_cases htrack with ⟨hnext, heq⟩ | ⟨hnext, last, rfl⟩ | ⟨hnext, heq⟩
    · cases above with
      | nil =>
        obtain ⟨rfl, -⟩ := List.cons.inj heq
        exact ⟨located, [], rfl, hnext, rfl⟩
      | cons first above =>
        obtain ⟨rfl, rfl⟩ := List.cons.inj heq
        exact hbehind rfl (track_opening hnext)
    · exact hbehind rfl (track_closing hnext)
    · exact hbehind heq.symm (track_of_not_isParenthesis hnext)

/-- If no group is open, a closing parenthesis has no match. -/
theorem unopened_of_openGroups (h : openGroups located = some []) :
    Unopened (located.map Located.token) := by
  intro front inner hsplit hbalanced
  obtain ⟨before, rest, rfl, -, hrest⟩ := List.map_eq_append_iff.mp hsplit
  obtain ⟨opened, inside, rfl, hopened, rfl⟩ := List.map_eq_cons_iff.mp hrest
  rw [openGroups, List.foldlM_append, Option.bind_eq_bind, Option.bind_eq_some_iff] at h
  obtain ⟨groups, -, hinside⟩ := h
  rw [List.foldlM_cons, track_opening hopened] at hinside
  cases (foldlM_track_of_balanced hbalanced).symm.trans hinside

/-- The tokens whose groups are all their own close no group in front of them. -/
theorem unclosed_of_openGroups (h : openGroups located = some groups) :
    Unclosed (located.map Located.token) := by
  intro inner rest hsplit hbalanced
  obtain ⟨inside, back, rfl, rfl, hback⟩ := List.map_eq_append_iff.mp hsplit
  obtain ⟨closed, behind, rfl, hclosed, -⟩ := List.map_eq_cons_iff.mp hback
  rw [openGroups, List.foldlM_append, foldlM_track_of_balanced hbalanced, Option.bind_eq_bind,
    Option.bind_some, List.foldlM_cons, track_closing_nil hclosed] at h
  cases h

end Located

end FormulaCalculator
