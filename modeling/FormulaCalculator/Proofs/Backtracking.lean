import FormulaCalculator.Proofs.CursorActions

/-!
# Undoing a speculative scan

A scan that looks ahead and goes back to the checkpoint where it began leaves no trace:
the two cursors hold different parts of the text in what they have read, but the same
is in view, and what is in view decides all that later operations answer and leave in
view. There is one exception, going forward over characters that were only looked at,
so the later operations may go back but not forward.
-/

set_option autoImplicit false

namespace FormulaCalculator.Cursor

/-- What can be seen of an operation: its answer, and where the cursor is after it. -/
structure Observation where
  answer : Answer
  start : Nat
  checkpoint : Nat
  lexeme : List Char
deriving DecidableEq, Repr

/-- What can be seen of a sequence of operations. -/
def observe : List Action → Cursor → List Observation
  | [], _ => []
  | action :: actions, c =>
    ⟨action.answer c, (action.after c).start, (action.after c).checkpoint,
      (action.after c).lexeme⟩ :: observe actions (action.after c)

/-- Positions to which the cursor is moved are not beyond the place where it stands at
that moment. -/
def RestoresBack : List Action → Cursor → Prop
  | [], _ => True
  | action :: actions, c =>
    (∀ position ∈ action.target?, position ≤ c.checkpoint) ∧
      RestoresBack actions (action.after c)

instance instDecidableRestoresBack (actions : List Action) (c : Cursor) :
    Decidable (RestoresBack actions c) :=
  match actions with
  | [] => .isTrue trivial
  | action :: actions =>
    have := instDecidableRestoresBack actions (action.after c)
    inferInstanceAs (Decidable (_ ∧ _))

/-! ## What is in view decides -/

/-- Whether a character is passed, and what is in view then, depends only on what is in
view. -/
theorem exists_gives_acceptIf (inClass : Char → Bool) (v : View) :
    ∃ answer w, (Scan.acceptIf inClass).Gives v answer w := by
  rcases Scan.startsIn_or_not inClass v.ahead with hnot | ⟨first, rest, hahead, hin⟩
  · exact ⟨_, _, Scan.gives_acceptIf_none hnot⟩
  · exact ⟨_, _, Scan.gives_acceptIf hahead hin⟩

/-- What is in view decides what an operation answers and leaves in view, if it does not
move forward over characters. -/
theorem Action.exists_gives (action : Action) {v : View}
    (hback : ∀ position ∈ action.target?, position ≤ v.checkpoint) :
    ∃ answer w, action.scan.Gives v answer w := by
  have hanswer {α : Type} {scan : Scan α} (f : α → Answer)
      (h : ∃ a w, scan.Gives v a w) : ∃ a w, (do return f (← scan) : Scan Answer).Gives v a w := by
    obtain ⟨a, w, h⟩ := h
    exact ⟨f a, w, h.bind (Scan.gives_pure _ _)⟩
  have hsettled (h : action.isSpeculative = false) : ∃ a w, action.scan.Gives v a w := by
    cases settles h v with
    | stays hgives => exact ⟨_, _, hgives⟩
    | letsGo _ hgives => exact ⟨_, _, hgives⟩
  cases action with
  | peek => exact hanswer .character ⟨_, _, Scan.gives_peek v⟩
  | restore position =>
    exact hanswer (fun _ => .done) ⟨_, _, Scan.gives_restore_of_le (hback position rfl)⟩
  | next => exact hanswer .character (exists_gives_acceptIf _ v)
  | accept c => exact hanswer .character (exists_gives_acceptIf (· == c) v)
  | acceptAny cs => exact hanswer .character (exists_gives_acceptIf cs.contains v)
  | acceptIf inClass => exact hanswer .character (exists_gives_acceptIf inClass v)
  | skipWhile inClass => exact hanswer .flag ⟨_, _, Scan.gives_skipWhile inClass v⟩
  | ignore | extract | extractString | ignoreBlanks | scanNumber | scanNumberTail
  | scanOperator | scanName => exact hsettled rfl

/-- Two cursors with the same in view cannot be told apart by going back only. -/
theorem observe_of_view_eq {actions : List Action} {c d : Cursor} (hview : c.view = d.view)
    (hback : RestoresBack actions c) :
    RestoresBack actions d ∧ observe actions c = observe actions d := by
  induction actions generalizing c d with
  | nil => exact ⟨trivial, rfl⟩
  | cons action actions ih =>
    obtain ⟨hfirst, hrest⟩ := hback
    have hcheckpoint : c.checkpoint = d.checkpoint := congrArg View.checkpoint hview
    obtain ⟨answer, w, hgives⟩ := @action.exists_gives c.view hfirst
    obtain ⟨hanswer, hafter⟩ := hgives c rfl
    obtain ⟨hanswer', hafter'⟩ := hgives d hview.symm
    have hsame : (action.after c).view = (action.after d).view := hafter.trans hafter'.symm
    obtain ⟨hrestores, hobserve⟩ := ih hsame hrest
    refine ⟨⟨hcheckpoint ▸ hfirst, hrestores⟩, ?_⟩
    have hstart : (action.after c).start = (action.after d).start := congrArg View.start hsame
    have hstands : (action.after c).checkpoint = (action.after d).checkpoint :=
      congrArg View.checkpoint hsame
    have hlexeme : (action.after c).lexeme = (action.after d).lexeme := congrArg View.lexeme hsame
    rw [observe, observe, hobserve, hstart, hstands, hlexeme,
      show action.answer c = action.answer d from hanswer.trans hanswer'.symm]

/-! ## Going back to the checkpoint -/

/-- A speculative scan of any length only looks and moves. -/
theorem moved_of_speculation {actions : List Action}
    (h : ∀ action ∈ actions, action.isSpeculative = true) (c : Cursor) :
    Moved c (after actions c) := by
  induction actions generalizing c with
  | nil => exact Moved.refl c
  | cons action actions ih =>
    obtain ⟨hfirst, hrest⟩ := List.forall_mem_cons.mp h
    exact (action.moved_after hfirst c).trans (ih hrest (action.after c))

/-- Going back after some looking and moving brings back what was in view. -/
theorem Moved.view_moveTo {c d : Cursor} (h : Moved c d) :
    (d.moveTo c.checkpoint).view = c.view := by
  have hcount : c.checkpoint - d.start = c.lexeme.length := by
    rw [h.start_eq, checkpoint, Nat.add_sub_cancel_left]
  have hread : c.lexeme.length ≤ (d.lexeme ++ d.buffered).length := by
    have hle := h.read_le
    rw [List.length_append]
    omega
  have hlexeme : (d.moveTo c.checkpoint).lexeme = c.lexeme := by
    have htext := congrArg (List.take c.lexeme.length) h.text_eq
    rw [List.take_left, ahead, ← List.append_assoc, List.take_append_of_le_length hread] at htext
    rw [← htext, ← hcount]
    rfl
  have hahead : (d.moveTo c.checkpoint).ahead = c.ahead := by
    have htext := (d.moveTo_text c.checkpoint).trans h.text_eq
    rw [hlexeme] at htext
    exact List.append_cancel_left htext
  rw [view, view, moveTo_start, h.start_eq, hlexeme, hahead]

/-- A speculative scan that is undone leaves no trace. From any cursor, after any looking
and moving and going back to the checkpoint, the cursor and its lexeme are where they
were, and no later operations that go back only can tell the difference. -/
theorem observe_after_restore (c : Cursor) {speculation : List Action}
    (hspeculation : ∀ action ∈ speculation, action.isSpeculative = true) :
    let back := after (speculation ++ [.restore c.checkpoint]) c
    back.start = c.start ∧ back.checkpoint = c.checkpoint ∧ back.lexeme = c.lexeme ∧
      ∀ later : List Action,
        (RestoresBack later back ↔ RestoresBack later c) ∧
          (RestoresBack later c → observe later back = observe later c) := by
  intro back
  have hview : back.view = c.view := by
    have hmoved := moved_of_speculation hspeculation c
    have hback : back = (after speculation c).moveTo c.checkpoint := after_append _ _ c
    rw [hback]
    exact hmoved.view_moveTo
  refine ⟨congrArg View.start hview, congrArg View.checkpoint hview, congrArg View.lexeme hview,
    fun later => ⟨⟨?_, ?_⟩, ?_⟩⟩
  · exact fun h => (observe_of_view_eq hview h).1
  · exact fun h => (observe_of_view_eq hview.symm h).1
  · exact fun h => (observe_of_view_eq hview.symm h).2.symm

-- Going forward over a character that was only looked at tells the difference.
example : observe [.restore 1] (after [.peek, .restore 0] (ofText ['a'])) ≠
    observe [.restore 1] (ofText ['a']) := by decide

/-- The text of a number whose exponent has no digits, at the end of its first digit. -/
def behindDigit : Cursor := after [.next] (ofText ['2', 'e', '+', 'x'])

/-- The exponent is tried and given up, with a detour in front of the lexeme and one
beyond what was passed; the later operations read the number, a name and the rest. -/
theorem observe_after_restore_lackingExponent :
    (∀ action ∈ [Action.accept 'e', .acceptAny ['+', '-'], .skipWhile Char.isDigit, .restore 0,
        .next, .restore 9, .peek], action.isSpeculative = true) ∧
    RestoresBack [.scanNumber, .scanName, .restore 1, .next, .next, .restore 2, .ignoreBlanks]
      behindDigit ∧
    (let back := after ([.accept 'e', .acceptAny ['+', '-'], .skipWhile Char.isDigit, .restore 0,
        .next, .restore 9, .peek] ++ [.restore behindDigit.checkpoint]) behindDigit
    back.start = behindDigit.start ∧ back.checkpoint = behindDigit.checkpoint ∧
      back.lexeme = behindDigit.lexeme ∧
      observe [.scanNumber, .scanName, .restore 1, .next, .next, .restore 2, .ignoreBlanks] back =
        observe [.scanNumber, .scanName, .restore 1, .next, .next, .restore 2, .ignoreBlanks]
          behindDigit) := by
  have hspeculation : ∀ action ∈ [Action.accept 'e', .acceptAny ['+', '-'],
      .skipWhile Char.isDigit, .restore 0, .next, .restore 9, .peek],
      action.isSpeculative = true := by simp [Action.isSpeculative]
  have hlater : RestoresBack [.scanNumber, .scanName, .restore 1, .next, .next, .restore 2,
      .ignoreBlanks] behindDigit := by decide
  obtain ⟨hstart, hcheckpoint, hlexeme, htrace⟩ := observe_after_restore behindDigit hspeculation
  exact ⟨hspeculation, hlater, hstart, hcheckpoint, hlexeme, (htrace _).2 hlater⟩

end FormulaCalculator.Cursor
