import FormulaCalculator.Cursor

/-!
# What a scan does

Of a cursor only three things can be told by a scan: where the lexeme starts,
the lexeme, and what is ahead. How much of what is ahead has been read already
makes no difference, as long as a scan goes back to places it has been to. So a
scan is described by what it answers and leaves in view, and the descriptions of
its steps compose.
-/

set_option autoImplicit false

namespace FormulaCalculator

/-- What can be told of a cursor. -/
structure View where
  start : Nat
  lexeme : List Char
  ahead : List Char
deriving DecidableEq, Repr

namespace View

/-- How many characters stand before the cursor. -/
def checkpoint (v : View) : Nat := v.start + v.lexeme.length

/-- The view after the given characters have been passed. -/
def pass (v : View) (passed rest : List Char) : View := ⟨v.start, v.lexeme ++ passed, rest⟩

/-- Behind what is passed stands the rest. -/
@[simp]
theorem pass_ahead (v : View) (passed rest : List Char) : (v.pass passed rest).ahead = rest := rfl

/-- The cursor goes on by as many characters as are passed. -/
@[simp]
theorem pass_checkpoint (v : View) (passed rest : List Char) :
    (v.pass passed rest).checkpoint = v.checkpoint + passed.length := by
  simp [pass, checkpoint, Nat.add_assoc]

/-- To pass nothing changes nothing. -/
theorem pass_nil {v : View} {rest : List Char} (h : v.ahead = rest) : v.pass [] rest = v := by
  simp [pass, ← h]

/-- To pass some characters and then more is to pass them all. -/
@[simp]
theorem pass_pass (v : View) (passed more middle rest : List Char) :
    (v.pass passed middle).pass more rest = v.pass (passed ++ more) rest := by
  simp [pass]

end View

namespace Cursor

/-- What can be told of a cursor. -/
def view (c : Cursor) : View := ⟨c.start, c.lexeme, c.ahead⟩

/-- Reading ahead cannot be seen. -/
theorem view_fill (c : Cursor) : c.fill.view = c.view := by
  simp [view]

/-- What is passed goes from what is ahead to the lexeme. -/
theorem view_advance (n : Nat) (c : Cursor) :
    (c.advance n).view = c.view.pass (c.ahead.take n) (c.ahead.drop n) := by
  simp [view, View.pass]

/-- A cursor that goes back gives the end of the lexeme back to what is ahead. -/
theorem view_moveTo {position : Nat} {c : Cursor} (h : position ≤ c.checkpoint) :
    (c.moveTo position).view =
      ⟨c.start, c.lexeme.take (position - c.start),
        c.lexeme.drop (position - c.start) ++ c.ahead⟩ := by
  have hle : position - c.start ≤ c.lexeme.length := by
    unfold checkpoint at h
    omega
  simp [view, moveTo, ahead, List.take_append_of_le_length hle,
    List.drop_append_of_le_length hle]

end Cursor

namespace Scan

/-- From any cursor with the view `v`, the scan answers `a` and leaves `w` in
view. -/
def Gives {α : Type} (scan : Scan α) (v : View) (a : α) (w : View) : Prop :=
  ∀ c : Cursor, c.view = v → (scan.run c).1 = a ∧ (scan.run c).2.view = w

variable {α β : Type} {v w : View} {a : α}

/-- An answer without a step leaves what is in view. -/
theorem gives_pure (a : α) (v : View) : (pure a : Scan α).Gives v a v :=
  fun _ h => ⟨rfl, h⟩

/-- What the steps of a scan do one after the other. -/
theorem Gives.bind {scan : Scan α} {next : α → Scan β} {b : β} {u : View}
    (hscan : scan.Gives v a w) (hnext : (next a).Gives w b u) : (scan >>= next).Gives v b u := by
  intro c hc
  obtain ⟨hanswer, hview⟩ := hscan c hc
  have hrun : (scan >>= next).run c = (next a).run (scan.run c).2 := by
    rw [← hanswer]
    rfl
  rw [hrun]
  exact hnext _ hview

/-- Reading the state of the cursor, of which only the view is used. -/
theorem gives_get_bind {next : Cursor → Scan β} {b : β}
    (h : ∀ c : Cursor, c.view = v → (next c).Gives v b w) : (get >>= next).Gives v b w :=
  fun c hc => h c hc c hc

/-- Looking answers with the first character ahead and leaves what is in view. -/
theorem gives_peek (v : View) : peek.Gives v v.ahead.head? v := by
  intro c hc
  rw [run_peek, ← hc]
  exact ⟨rfl, c.view_fill⟩

/-- A character of the class is passed. -/
theorem gives_acceptIf {inClass : Char → Bool} {first : Char} {rest : List Char}
    (hahead : v.ahead = first :: rest) (hin : inClass first = true) :
    (acceptIf inClass).Gives v (some first) (v.pass [first] rest) := by
  intro c hc
  have hc' : c.ahead = first :: rest := by
    rw [← hahead, ← hc]
    rfl
  rw [run_acceptIf, hc']
  simp [hin, Cursor.view_advance, Cursor.view_fill, hc, hc']

/-- Any other character, or none, leaves what is in view. -/
theorem gives_acceptIf_none {inClass : Char → Bool}
    (hnot : ∀ first ∈ v.ahead.head?, inClass first = false) :
    (acceptIf inClass).Gives v none v := by
  intro c hc
  have hc' : c.ahead = v.ahead := by
    rw [← hc]
    rfl
  rw [run_acceptIf, hc']
  cases hhead : v.ahead.head? with
  | none => exact ⟨rfl, by rw [c.view_fill, hc]⟩
  | some first =>
    have hfirst := hnot first hhead
    simp [hfirst, Cursor.view_fill, hc]

/-- A run of the class is passed up to its end. -/
theorem gives_skipWhile (inClass : Char → Bool) (v : View) :
    (skipWhile inClass).Gives v (!(v.ahead.takeWhile inClass).isEmpty)
      (v.pass (v.ahead.takeWhile inClass) (v.ahead.dropWhile inClass)) := by
  intro c hc
  have hc' : c.ahead = v.ahead := by
    rw [← hc]
    rfl
  have htake : (c.ahead.takeWhile inClass ++ c.ahead.dropWhile inClass).take
      (c.ahead.takeWhile inClass).length = c.ahead.takeWhile inClass := List.take_left
  have hdrop : (c.ahead.takeWhile inClass ++ c.ahead.dropWhile inClass).drop
      (c.ahead.takeWhile inClass).length = c.ahead.dropWhile inClass := List.drop_left
  rw [List.takeWhile_append_dropWhile] at htake hdrop
  rw [run_skipWhile]
  refine ⟨by rw [hc'], ?_⟩
  rw [Cursor.view_fill, Cursor.view_advance, htake, hdrop, hc, hc']

/-- The checkpoint is the place of the cursor. -/
theorem gives_checkpoint (v : View) : checkpoint.Gives v v.checkpoint v := by
  rintro c rfl
  exact ⟨rfl, rfl⟩

/-- Going back moves the end of the lexeme to what is ahead. -/
theorem gives_restore_of_le {position : Nat} (h : position ≤ v.checkpoint) :
    (restore position).Gives v () ⟨v.start, v.lexeme.take (position - v.start),
      v.lexeme.drop (position - v.start) ++ v.ahead⟩ := by
  rintro c rfl
  exact ⟨rfl, Cursor.view_moveTo h⟩

/-- Going back to where the cursor stood before it passed some characters brings back what
was in view. -/
theorem gives_restore {passed rest : List Char} (h : passed ++ rest = v.ahead) :
    (restore v.checkpoint).Gives (v.pass passed rest) () v := by
  have hgives := @gives_restore_of_le (v.pass passed rest) v.checkpoint (by simp)
  simpa [View.pass, View.checkpoint, h] using hgives

/-- The lexeme is let go of, and the next one starts here. -/
theorem gives_ignore (v : View) : ignore.Gives v () ⟨v.checkpoint, [], v.ahead⟩ := by
  rintro c rfl
  exact ⟨rfl, rfl⟩

/-- The lexeme is the answer, and the next one starts here. -/
theorem gives_extract (v : View) : extract.Gives v v.lexeme ⟨v.checkpoint, [], v.ahead⟩ := by
  rintro c rfl
  rw [run_extract]
  exact ⟨rfl, rfl⟩

/-- The lexeme as a string is the answer, and the next one starts here. -/
theorem gives_extractString (v : View) :
    extractString.Gives v (String.ofList v.lexeme) ⟨v.checkpoint, [], v.ahead⟩ :=
  (gives_extract v).bind (gives_pure _ _)

end Scan

end FormulaCalculator
