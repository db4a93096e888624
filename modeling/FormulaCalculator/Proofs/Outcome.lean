/-!
# Steps that can fail

How a result that may be an error is taken apart. A chain of steps succeeds
exactly if each of its steps does.
-/

set_option autoImplicit false

namespace FormulaCalculator

variable {ε α β : Type}

/-- After a result the next step goes on with it. -/
@[simp]
theorem ok_bind (a : α) (f : α → Except ε β) : (Except.ok a >>= f) = f a := rfl

/-- After an error nothing else is done. -/
@[simp]
theorem error_bind (e : ε) (f : α → Except ε β) : (Except.error e >>= f) = .error e := rfl

/-- To give a result is to have no error. -/
@[simp]
theorem pure_eq_ok (a : α) : (pure a : Except ε α) = .ok a := rfl

/-- A result is turned into another one. -/
@[simp]
theorem map_ok (f : α → β) (a : α) : (Except.ok a : Except ε α).map f = .ok (f a) := rfl

/-- An error stays what it is. -/
@[simp]
theorem map_error (f : α → β) (e : ε) : (Except.error e : Except ε α).map f = .error e := rfl

/-- Two steps have a result if the first has one, from which the second gets it. -/
theorem bind_eq_ok_iff {x : Except ε α} {f : α → Except ε β} {b : β} :
    (x >>= f) = .ok b ↔ ∃ a, x = .ok a ∧ f a = .ok b := by
  cases x with
  | error e => simp
  | ok a => simp

/-- A result that was turned into another one was a result before. -/
theorem map_eq_ok_iff {x : Except ε α} {f : α → β} {b : β} :
    x.map f = .ok b ↔ ∃ a, x = .ok a ∧ f a = b := by
  cases x with
  | error e => simp
  | ok a => simp

/-- An error of two steps is that of the first, or that of the second after a result of
the first. -/
theorem bind_eq_error_iff {x : Except ε α} {f : α → Except ε β} {e : ε} :
    (x >>= f) = .error e ↔ x = .error e ∨ ∃ a, x = .ok a ∧ f a = .error e := by
  cases x with
  | error e => simp
  | ok a => simp

/-- A run that fails does so at one of its steps, behind steps that succeed. -/
theorem exists_of_foldlM_eq_error {f : β → α → Except ε β} {l : List α} {b : β} {e : ε}
    (h : l.foldlM f b = .error e) : ∃ before next after middle,
      l = before ++ next :: after ∧ before.foldlM f b = .ok middle ∧ f middle next = .error e := by
  induction l generalizing b with
  | nil => cases h
  | cons first l ih =>
    rw [List.foldlM_cons] at h
    rcases bind_eq_error_iff.mp h with hfirst | ⟨middle, hfirst, hrest⟩
    · exact ⟨[], first, l, b, rfl, rfl, hfirst⟩
    · obtain ⟨before, next, after, last, rfl, hbefore, hnext⟩ := ih hrest
      refine ⟨first :: before, next, after, last, rfl, ?_, hnext⟩
      rw [List.foldlM_cons, hfirst]
      exact hbefore

end FormulaCalculator
