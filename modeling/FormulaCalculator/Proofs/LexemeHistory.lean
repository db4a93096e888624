import FormulaCalculator.Proofs.IndexedCursor

/-!
# The lexemes that a cursor has let go of

However a cursor is driven, the text is at every moment what has been let go of, the
lexeme, what has been read beyond the cursor, and what has not been read, one behind
the other. So the lexeme is the stretch of the text from its start to the cursor, and
the lexemes that were dropped or extracted, one after the other, are the text in front
of it.
-/

set_option autoImplicit false

namespace FormulaCalculator.Cursor

/-- What a sequence of operations lets go of, one lexeme after the other. -/
def released : List Action → Cursor → List Char
  | [], _ => []
  | action :: actions, c => action.released c ++ released actions (action.after c)

/-- From `c` to `d` the characters `gone` have been let go of, and no character else. -/
structure Releases (c : Cursor) (gone : List Char) (d : Cursor) : Prop where
  start_eq : d.start = c.start + gone.length
  text_eq : gone ++ (d.lexeme ++ d.ahead) = c.lexeme ++ c.ahead

/-- What is let go of on the way and what is let go of then are let go of in this
order. -/
theorem Releases.trans {c d e : Cursor} {gone more : List Char} (h : Releases c gone d)
    (h' : Releases d more e) : Releases c (gone ++ more) e := by
  constructor
  · rw [h'.start_eq, h.start_eq, List.length_append, Nat.add_assoc]
  · rw [List.append_assoc, h'.text_eq, h.text_eq]

/-- An operation lets go of what it drops or extracts, and of nothing else. -/
theorem Action.releases (action : Action) (c : Cursor) :
    Releases c (action.released c) (action.after c) := by
  cases hspeculative : action.isSpeculative with
  | true =>
    have hmoved := action.moved_after hspeculative c
    rw [action.released_of_isSpeculative hspeculative]
    exact ⟨hmoved.start_eq, hmoved.text_eq⟩
  | false =>
    cases action.settles hspeculative c.view with
    | stays hgives hreleased =>
      have hview : (action.after c).view = c.view := (hgives c rfl).2
      have hlexeme : (action.after c).lexeme = c.lexeme := congrArg View.lexeme hview
      have hahead : (action.after c).ahead = c.ahead := congrArg View.ahead hview
      rw [hreleased c rfl]
      exact ⟨congrArg View.start hview, by rw [hlexeme, hahead, List.nil_append]⟩
    | @letsGo answer passed rest hsplit hgives hreleased =>
      have hview : (action.after c).view = ⟨c.checkpoint + passed.length, [], rest⟩ :=
        (hgives c rfl).2
      have hstart : (action.after c).start = c.checkpoint + passed.length :=
        congrArg View.start hview
      have hlexeme : (action.after c).lexeme = [] := congrArg View.lexeme hview
      have hahead : (action.after c).ahead = rest := congrArg View.ahead hview
      have hsplit : passed ++ rest = c.ahead := hsplit
      rw [hreleased c rfl]
      constructor
      · rw [hstart, checkpoint, List.length_append, Nat.add_assoc]
        rfl
      · rw [hlexeme, hahead, List.nil_append, List.append_assoc, hsplit]
        rfl

/-- A sequence of operations lets go of what its operations do, one after the other. -/
theorem releases_after (actions : List Action) (c : Cursor) :
    Releases c (released actions c) (after actions c) := by
  induction actions generalizing c with
  | nil => exact ⟨rfl, rfl⟩
  | cons action actions ih => exact (action.releases c).trans (ih (action.after c))

/-- What holds of a cursor on a text after any operations: the lexeme starts at the
cursor or before it; the characters read are the beginning of the text, and the others
are still to be read; the lexeme is the stretch of the text from its start to the
cursor; the start never goes back; and what has been let go of is the text before it.

The same operations on positions in a buffer never fail, and end with the lexeme between
two positions that are in order and within the characters read. -/
theorem after_invariant (text : List Char) (actions : List Action) :
    let c := after actions (ofText text)
    let gone := released actions (ofText text)
    let read := gone ++ c.lexeme ++ c.buffered
    c.start ≤ c.checkpoint ∧ c.checkpoint ≤ read.length ∧
      read ++ c.unread = text ∧
      c.lexeme = text.extract c.start c.checkpoint ∧
      (∀ more : List Action, c.start ≤ (after (actions ++ more) (ofText text)).start) ∧
      gone = text.take c.start ∧
      ∃ i : IndexedCursor,
        (actions.mapM Action.indexed).run (.ofText text) =
          some (answers actions (ofText text), i) ∧
        i.start = c.start ∧ i.position = c.checkpoint ∧ i.seen = read ∧ i.unread = c.unread ∧
        i.start ≤ i.position ∧ i.position ≤ i.seen.length ∧ i.lexeme? = some c.lexeme := by
  intro c gone read
  obtain ⟨hstart, htext⟩ := releases_after actions (ofText text)
  have hstart : c.start = gone.length := hstart.trans (Nat.zero_add _)
  have htext : gone ++ (c.lexeme ++ (c.buffered ++ c.unread)) = text := htext
  have hread : read ++ c.unread = text := by
    simp only [read, List.append_assoc]
    exact htext
  refine ⟨Nat.le_add_right _ _, ?_, hread, ?_, ?_, ?_, ?_⟩
  · simp only [read, List.length_append, checkpoint, hstart]
    omega
  · rw [← htext, hstart, checkpoint, hstart, List.extract_eq_take_drop, List.drop_left,
      Nat.add_sub_cancel_left, List.take_left]
  · intro more
    rw [after_append]
    have hmore := (releases_after more c).start_eq
    exact hmore ▸ Nat.le_add_right _ _
  · rw [← htext, hstart, List.take_left]
  -- The buffer is what was read, since both leave the same to be read of the text.
  · obtain ⟨i, hrun, hi⟩ := exists_represents_after text actions
    have hunread : i.unread = c.unread := congrArg Cursor.unread hi.cursor_eq
    have hbuffer : i.seen ++ c.unread = read ++ c.unread := by
      rw [hread, ← hunread, hi.text_eq]
    have hseen : i.seen = read := List.append_cancel_right hbuffer
    exact ⟨i, hrun, congrArg Cursor.start hi.cursor_eq, hi.checkpoint_eq.symm, hseen, hunread,
      hi.start_le, hi.position_le, hi.lexeme?_eq⟩

end FormulaCalculator.Cursor
