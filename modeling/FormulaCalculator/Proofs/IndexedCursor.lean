import FormulaCalculator.Cursor.Indexed
import FormulaCalculator.Proofs.CursorActions

/-!
# Positions in a buffer stand for a cursor

Two positions in a buffer that are in order and within it stand for a cursor: its lexeme is
the stretch between them, and what is read beyond it is the rest of the buffer. Every
operation on the positions does what the operation on the cursor does, and leaves positions
that are in order and within the buffer, so a lexeme can always be taken out.

The proofs go from the moves of the positions to the operations, and from one operation to
a sequence of them, which a scan is as well.
-/

set_option autoImplicit false

namespace FormulaCalculator

open Text

namespace Cursor

/-! ## Moving twice -/

/-- Moving past no character. -/
theorem advance_zero (c : Cursor) : c.advance 0 = c := by
  simp [advance]

/-- Moving past some characters and then past more is one move. -/
theorem advance_advance (m n : Nat) (c : Cursor) :
    (c.advance m).advance n = c.advance (m + n) := by
  have hlexeme : ((c.advance m).advance n).lexeme = (c.advance (m + n)).lexeme := by
    rw [advance_lexeme, advance_lexeme, advance_lexeme, advance_ahead, List.append_assoc,
      List.take_add]
  have hunread : ((c.advance m).advance n).unread = (c.advance (m + n)).unread := by
    simp only [advance, List.length_drop, List.drop_drop]
    congr 1
    omega
  have hbuffered : ((c.advance m).advance n).buffered = (c.advance (m + n)).buffered := by
    simp only [advance, List.drop_drop]
  have hparts := congr (congr (congrArg (Cursor.mk c.start) hlexeme) hbuffered) hunread
  exact hparts

/-- A character that is passed has been read, whether it was looked at before or not. -/
theorem advance_fill (n : Nat) (c : Cursor) : c.fill.advance (n + 1) = c.advance (n + 1) := by
  unfold fill
  split
  · next hbuffered hunread =>
    simp [advance, ahead, hbuffered, hunread]
  · rfl

/-- A cursor that is moved goes to the given position where it is in the lexeme or in what
has been read beyond it, and else to the nearer end of these. -/
theorem checkpoint_moveTo (position : Nat) (c : Cursor) :
    (c.moveTo position).checkpoint =
      min (max position c.start) (c.start + (c.lexeme ++ c.buffered).length) := by
  simp only [checkpoint, moveTo, List.length_take]
  omega

/-- Passing one character of a class: there is none, or it is the first one ahead. -/
theorem run_acceptIf_cases (inClass : Char → Bool) (c : Cursor) :
    (c.ahead.takeWhile inClass = [] ∧ (Scan.acceptIf inClass).run c = (none, c.fill)) ∨
      ∃ a rest, c.ahead = a :: rest ∧ inClass a = true ∧
        (Scan.acceptIf inClass).run c = (some a, c.fill.advance 1) := by
  rw [Scan.run_acceptIf]
  cases hahead : c.ahead with
  | nil => exact .inl ⟨rfl, rfl⟩
  | cons a rest =>
    by_cases hin : inClass a = true
    · exact .inr ⟨a, rest, rfl, hin, if_pos hin⟩
    · exact .inl ⟨List.takeWhile_cons_of_neg hin, if_neg hin⟩

end Cursor

namespace IndexedCursor

/-! ## The cursor that two positions stand for -/

/-- The lexeme is the stretch of the buffer between the positions. -/
def toCursor (i : IndexedCursor) : Cursor :=
  ⟨i.start, i.seen.extract i.start i.position, i.seen.drop i.position, i.unread⟩

/-- The positions are in order and within the buffer, the buffer is what has been read of
the text, and the cursor is the one that the positions stand for. -/
structure Represents (i : IndexedCursor) (text : List Char) (c : Cursor) : Prop where
  start_le : i.start ≤ i.position
  position_le : i.position ≤ i.seen.length
  text_eq : i.seen ++ i.unread = text
  cursor_eq : i.toCursor = c

variable {i : IndexedCursor} {text : List Char} {c : Cursor}

/-- At the start of a text nothing has been read and nothing been passed. -/
theorem represents_ofText (text : List Char) : (ofText text).Represents text (.ofText text) :=
  ⟨Nat.le_refl _, Nat.le_refl _, rfl, rfl⟩

/-- The cursor stands where the second position is. -/
theorem Represents.checkpoint_eq (h : i.Represents text c) : c.checkpoint = i.position := by
  obtain ⟨hstart, hposition, -, rfl⟩ := h
  simp only [toCursor, Cursor.checkpoint, List.extract_eq_take_drop, List.length_take,
    List.length_drop]
  omega

/-- The lexeme can be taken out of the buffer. -/
theorem Represents.lexeme?_eq (h : i.Represents text c) : i.lexeme? = some c.lexeme := by
  obtain ⟨hstart, hposition, -, rfl⟩ := h
  rw [lexeme?, if_pos ⟨hstart, hposition⟩]
  rfl

/-- Reading a character into the buffer. -/
theorem Represents.fill (h : i.Represents text c) : i.fill.Represents text c.fill := by
  obtain ⟨hstart, hposition, htext, rfl⟩ := h
  unfold IndexedCursor.fill
  split
  -- All that was read is passed, so nothing is read beyond the cursor.
  · next hend =>
    have hbuffered : i.toCursor.buffered = [] := by
      rw [toCursor, hend, List.drop_length]
    cases hunread : i.unread with
    | nil =>
      have hsame : i.toCursor.fill = i.toCursor := by
        rw [Cursor.fill, hbuffered, show i.toCursor.unread = [] from hunread]
      exact ⟨hstart, hposition, htext, hsame.symm⟩
    | cons next rest =>
      refine ⟨hstart, ?_, ?_, ?_⟩
      · exact Nat.le_trans hposition (List.length_append ▸ Nat.le_add_right _ _)
      · rw [← htext, hunread, List.append_assoc, List.singleton_append]
      · have hread : i.toCursor.fill = { i.toCursor with buffered := [next], unread := rest } := by
          rw [Cursor.fill, hbuffered, show i.toCursor.unread = next :: rest from hunread]
        rw [hread]
        simp only [toCursor, List.extract_eq_take_drop, Cursor.mk.injEq, true_and, and_true]
        constructor
        · rw [List.drop_append_of_le_length (by omega), List.take_append_of_le_length]
          rw [List.length_drop]
          omega
        · rw [hend, List.drop_left]
  · next hwithin =>
    have hsame : i.toCursor.fill = i.toCursor := by
      -- The next character has been read before, and the cursor keeps it too.
      have hne : i.toCursor.buffered ≠ [] := by
        rw [toCursor, ne_eq, List.drop_eq_nil_iff]
        omega
      unfold Cursor.fill
      split
      · next hbuffered _ => exact absurd hbuffered hne
      · rfl
    exact ⟨hstart, hposition, htext, hsame.symm⟩

/-- Passing a character that has been read. -/
theorem Represents.pass (h : i.Represents text c) (hwithin : i.position < i.seen.length) :
    { i with position := i.position + 1 }.Represents text (c.advance 1) := by
  obtain ⟨hstart, hposition, htext, rfl⟩ := h
  have hcons := List.drop_eq_getElem_cons hwithin
  have hahead : i.toCursor.ahead.take 1 = [i.seen[i.position]] := by
    rw [Cursor.ahead, toCursor, hcons]
    rfl
  refine ⟨Nat.le_succ_of_le hstart, hwithin, htext, ?_⟩
  rw [Cursor.advance, hahead]
  simp only [toCursor, Cursor.mk.injEq, true_and]
  refine ⟨?_, ?_, ?_⟩
  · rw [List.extract_eq_take_drop, List.extract_eq_take_drop, Nat.succ_sub hstart,
      List.take_add_one, List.getElem?_drop, Nat.add_sub_cancel' hstart,
      List.getElem?_eq_getElem hwithin, Option.toList_some]
  · rw [List.drop_drop]
  · have hcount : 1 - (i.seen.drop i.position).length = 0 := by
      rw [List.length_drop]
      omega
    rw [hcount, List.drop_zero]

/-- Looking at the next character. -/
theorem Represents.peek_eq (h : i.Represents text c) : i.peek = (c.ahead.head?, i.fill) := by
  have hnext : c.fill.buffered.head? = i.fill.seen[i.fill.position]? := by
    rw [← h.fill.cursor_eq, toCursor, List.head?_drop]
  rw [peek, ← hnext, Cursor.fill_buffered_head?]

/-- Passing the next character if it is in a class. -/
theorem Represents.acceptIf (inClass : Char → Bool) (h : i.Represents text c) :
    (i.acceptIf inClass).1 = ((Scan.acceptIf inClass).run c).1 ∧
      (i.acceptIf inClass).2.Represents text ((Scan.acceptIf inClass).run c).2 := by
  rw [Scan.run_acceptIf, IndexedCursor.acceptIf, h.peek_eq]
  cases hnext : c.ahead.head? with
  | none => exact ⟨rfl, h.fill⟩
  | some a =>
    have hwithin : i.fill.position < i.fill.seen.length := by
      have hpeek := congrArg Prod.fst h.peek_eq
      rw [hnext] at hpeek
      exact (List.getElem?_eq_some_iff.mp hpeek).1
    by_cases hin : inClass a = true
    · simp only [if_pos hin]
      exact ⟨trivial, h.fill.pass hwithin⟩
    · simp only [if_neg hin]
      exact ⟨trivial, h.fill⟩

/-- Passing the characters of a class. The induction is on the characters that can be
passed: the first one is passed by both cursors, and then there are fewer. -/
theorem Represents.passWhile (inClass : Char → Bool) (h : i.Represents text c) :
    (i.passWhile inClass).Represents text
      (c.advance (c.ahead.takeWhile inClass).length).fill := by
  induction i using IndexedCursor.passWhile.induct inClass generalizing c with
  | case1 i a d hstep ih =>
    obtain ⟨hanswer, hpassed⟩ := h.acceptIf inClass
    rw [hstep] at hanswer hpassed
    rw [IndexedCursor.passWhile, hstep]
    rcases c.run_acceptIf_cases inClass with ⟨-, hrun⟩ | ⟨a, rest, hahead, hin, hrun⟩
    · rw [hrun] at hanswer
      cases hanswer
    · rw [hrun] at hpassed
      have hrest : (c.fill.advance 1).ahead = rest := by
        rw [Cursor.advance_ahead, Cursor.fill_ahead, hahead, List.drop_one, List.tail_cons]
      have hall := ih hpassed
      rwa [hrest, Cursor.advance_fill, Cursor.advance_advance, Nat.add_comm,
        ← List.length_cons, ← List.takeWhile_cons_of_pos hin, ← hahead] at hall
  | case2 i d hstep =>
    obtain ⟨hanswer, hpassed⟩ := h.acceptIf inClass
    rw [hstep] at hanswer hpassed
    rw [IndexedCursor.passWhile, hstep]
    rcases c.run_acceptIf_cases inClass with ⟨hnone, hrun⟩ | ⟨a, rest, -, -, hrun⟩
    · rw [hrun] at hpassed
      rw [hnone, List.length_nil, Cursor.advance_zero]
      exact hpassed
    · rw [hrun] at hanswer
      cases hanswer

/-- Moving to a position. -/
theorem Represents.moveTo (position : Nat) (h : i.Represents text c) :
    (i.moveTo position).Represents text (c.moveTo position) := by
  obtain ⟨hstart, hposition, htext, rfl⟩ := h
  have hread : i.toCursor.lexeme ++ i.toCursor.buffered = i.seen.drop i.start := by
    have hsplit := List.take_append_drop (i.position - i.start) (i.seen.drop i.start)
    rw [List.drop_drop, Nat.add_sub_cancel' hstart] at hsplit
    rw [toCursor, List.extract_eq_take_drop, hsplit]
  refine ⟨?_, Nat.min_le_right _ _, htext, ?_⟩
  · simp only [IndexedCursor.moveTo]
    omega
  · rw [Cursor.moveTo, hread]
    simp only [toCursor, IndexedCursor.moveTo, Cursor.mk.injEq, List.extract_eq_take_drop,
      true_and, and_true]
    constructor
    · rw [List.take_eq_take_iff, List.length_drop]
      omega
    · rw [List.drop_drop, List.drop_eq_drop_iff]
      omega

/-- Letting go of the lexeme. -/
theorem Represents.dropLexeme (h : i.Represents text c) :
    i.dropLexeme.Represents text c.dropLexeme := by
  have hcheckpoint := h.checkpoint_eq
  obtain ⟨hstart, hposition, htext, rfl⟩ := h
  refine ⟨Nat.le_refl _, hposition, htext, ?_⟩
  rw [Cursor.dropLexeme, hcheckpoint]
  simp [toCursor, IndexedCursor.dropLexeme]

end IndexedCursor

namespace IndexedScan

/-! ## Scans on positions -/

variable {α β : Type}

/-- From positions that stand for a cursor, the scan on positions has a result. It answers
what the scan on the cursor does, and leaves positions that stand for the cursor after it. -/
def Refines (indexed : IndexedScan α) (scan : Scan α) : Prop :=
  ∀ (i : IndexedCursor) (text : List Char) (c : Cursor), i.Represents text c →
    ∃ j : IndexedCursor, indexed.run i = some ((scan.run c).1, j) ∧
      j.Represents text (scan.run c).2

/-- Answering without a move. -/
theorem refines_pure (a : α) : Refines (pure a) (pure a) :=
  fun i _ _ h => ⟨i, rfl, h⟩

/-- One scan after the other. -/
theorem Refines.bind {indexed : IndexedScan α} {scan : Scan α} {indexedNext : α → IndexedScan β}
    {next : α → Scan β} (h : indexed.Refines scan)
    (hnext : ∀ a, (indexedNext a).Refines (next a)) :
    (indexed >>= indexedNext).Refines (scan >>= next) := by
  intro i text c hi
  obtain ⟨j, hrun, hj⟩ := h i text c hi
  obtain ⟨k, hrun', hk⟩ := hnext (scan.run c).1 j text (scan.run c).2 hj
  refine ⟨k, ?_, hk⟩
  rw [StateT.run_bind, hrun]
  exact hrun'

/-- An answer turned into another one. -/
theorem Refines.map {indexed : IndexedScan α} {scan : Scan α} (h : indexed.Refines scan)
    (f : α → β) : Refines (do return f (← indexed)) (do return f (← scan)) :=
  h.bind fun a => refines_pure (f a)

/-- The checkpoint is the position. -/
theorem refines_checkpoint : checkpoint.Refines Scan.checkpoint := by
  intro i text c h
  refine ⟨i, ?_, h⟩
  rw [show (Scan.checkpoint.run c).1 = i.position from h.checkpoint_eq]
  rfl

/-- Moving to a position never fails, however far off the position is. -/
theorem refines_restore (position : Nat) : (restore position).Refines (Scan.restore position) :=
  fun i _ _ h => ⟨i.moveTo position, rfl, h.moveTo position⟩

/-- Looking at a character never fails, at the end of the text either. -/
theorem refines_peek : peek.Refines Scan.peek := by
  intro i text c h
  rw [Scan.run_peek]
  exact ⟨i.fill, congrArg some h.peek_eq, h.fill⟩

/-- Passing a character never fails; it is passed on both sides or on neither. -/
theorem refines_acceptIf (inClass : Char → Bool) :
    (acceptIf inClass).Refines (Scan.acceptIf inClass) := by
  intro i text c h
  obtain ⟨hanswer, hpassed⟩ := h.acceptIf inClass
  exact ⟨(i.acceptIf inClass).2, congrArg (fun a => some (a, _)) hanswer, hpassed⟩

/-- The cursor has moved if a character was passed. -/
theorem refines_skipWhile (inClass : Char → Bool) :
    (skipWhile inClass).Refines (Scan.skipWhile inClass) := by
  intro i text c h
  have hpassed := h.passWhile inClass
  have hmoved : (i.passWhile inClass).position =
      i.position + (c.ahead.takeWhile inClass).length := by
    have hlength : (c.ahead.takeWhile inClass).length ≤ c.ahead.length :=
      (List.takeWhile_sublist inClass).length_le
    rw [← hpassed.checkpoint_eq, ← h.checkpoint_eq, Cursor.checkpoint, Cursor.fill_start,
      Cursor.fill_lexeme, Cursor.advance_start, Cursor.advance_lexeme, List.length_append,
      List.length_take, Nat.min_eq_left hlength, Cursor.checkpoint, Nat.add_assoc]
  have hflag : decide (i.position < (i.passWhile inClass).position) =
      !(c.ahead.takeWhile inClass).isEmpty := by
    rw [hmoved]
    cases c.ahead.takeWhile inClass <;> simp
  refine ⟨i.passWhile inClass, ?_, hpassed⟩
  rw [Scan.run_skipWhile, ← hflag]
  rfl

/-- The start of the lexeme is set to the position, which is not before it. -/
theorem refines_ignore : ignore.Refines Scan.ignore :=
  fun i _ _ h => ⟨i.dropLexeme, rfl, h.dropLexeme⟩

/-- The lexeme is there to be extracted. -/
theorem refines_extract : extract.Refines Scan.extract := by
  intro i text c h
  refine ⟨i.dropLexeme, ?_, h.dropLexeme⟩
  rw [extract, StateT.run_bind, StateT.run_get, Scan.run_extract]
  simp only [ignore, Option.pure_def, Option.bind_eq_bind, Option.bind_some, StateT.run_bind,
    StateT.run_monadLift, monadLift_self, h.lexeme?_eq, StateT.run_modify, StateT.run_pure]

/-- The lexeme as a string is the lexeme. -/
theorem refines_extractString : extractString.Refines Scan.extractString :=
  refines_extract.map String.ofList

/-- Blanks are passed and let go of on both sides. -/
theorem refines_ignoreBlanks : ignoreBlanks.Refines Scan.ignoreBlanks :=
  (refines_skipWhile isBlankAscii).bind fun skipped => refines_ignore.map fun _ => skipped

/-- The exponent of a number, and the number: where no digits follow the mark of the exponent,
both go back to where it stands. -/
theorem refines_exponent : Refines (do
    let mark ← checkpoint
    if (← acceptAny ['e', 'E']).isSome then
      let _ ← acceptAny ['+', '-']
      if !(← skipWhile Char.isDigit) then
        restore mark
    return some (← extractString))
    (do
      Scan.skipExponent
      return some (← Scan.extractString)) := by
  have hnumber := refines_extractString.map some
  rw [Scan.skipExponent, bind_assoc]
  refine refines_checkpoint.bind fun mark => ?_
  rw [bind_assoc]
  refine (refines_acceptIf _).bind fun exponent => ?_
  cases exponent with
  | none => exact hnumber
  | some _ =>
    simp only [Option.isSome_some, if_true, bind_assoc]
    refine (refines_acceptIf _).bind fun _ => ?_
    refine (refines_skipWhile Char.isDigit).bind fun digits => ?_
    cases digits with
    | true => exact hnumber
    | false => exact (refines_restore mark).bind fun _ => hnumber

/-- A number: where no digits follow its point, both go back to where that stands and look
for no exponent. -/
theorem refines_scanNumber : scanNumber.Refines Scan.scanNumber := by
  refine (refines_skipWhile Char.isDigit).bind fun digits => ?_
  cases digits with
  | false => exact refines_pure none
  | true =>
    simp only [if_true, Bool.not_true, Bool.false_eq_true, if_false]
    rw [Scan.skipFraction, bind_assoc]
    refine refines_checkpoint.bind fun mark => ?_
    rw [bind_assoc]
    refine (refines_acceptIf _).bind fun point => ?_
    cases point with
    | none => exact refines_exponent
    | some _ =>
      simp only [Option.isSome_some, if_true, bind_assoc]
      refine (refines_skipWhile Char.isDigit).bind fun digits => ?_
      cases digits with
      | true => exact refines_exponent
      | false => exact (refines_restore mark).bind fun _ => refines_extractString.map some

/-- The rest of a bad literal, which starts with a point or is not there. -/
theorem refines_scanNumberTail (head : String) :
    (scanNumberTail head).Refines (Scan.scanNumberTail head) := by
  refine refines_peek.bind fun next => ?_
  by_cases hpoint : next = some '.'
  · subst hpoint
    exact (refines_skipWhile isNumeric).bind fun _ =>
      refines_extractString.map fun tail => some (head ++ tail)
  · have hskip : (next != some '.') = true := bne_iff_ne.mpr hpoint
    have hstop : ¬(next == some '.') = true := fun h => hpoint (eq_of_beq h)
    simp only [hskip, if_pos, if_neg hstop]
    exact refines_pure none

/-- The sign of an operator, which is there or not. -/
theorem refines_scanOperator : scanOperator.Refines Scan.scanOperator := by
  refine (refines_acceptIf Scan.operatorSigns.contains).bind fun sign => ?_
  cases sign with
  | none => exact refines_pure none
  | some _ => exact refines_extractString.map some

/-- A name, which has a first character or is not there. -/
theorem refines_scanName : scanName.Refines Scan.scanName := by
  refine (refines_acceptIf startsName).bind fun first => ?_
  cases first with
  | none => exact refines_pure none
  | some _ =>
    exact (refines_skipWhile continuesName).bind fun _ => refines_extractString.map some

end IndexedScan

namespace Cursor

/-! ## Sequences of operations -/

/-- The scan on positions that an operation is. -/
def Action.indexed : Action → IndexedScan Answer
  | .next => return .character (← IndexedScan.next)
  | .peek => return .character (← IndexedScan.peek)
  | .restore position => do
    IndexedScan.restore position
    return .done
  | .ignore => do
    IndexedScan.ignore
    return .done
  | .extract => return .characters (← IndexedScan.extract)
  | .extractString => return .text (some (← IndexedScan.extractString))
  | .accept c => return .character (← IndexedScan.accept c)
  | .acceptAny cs => return .character (← IndexedScan.acceptAny cs)
  | .acceptIf inClass => return .character (← IndexedScan.acceptIf inClass)
  | .skipWhile inClass => return .flag (← IndexedScan.skipWhile inClass)
  | .ignoreBlanks => return .flag (← IndexedScan.ignoreBlanks)
  | .scanNumber => return .text (← IndexedScan.scanNumber)
  | .scanNumberTail head => return .text (← IndexedScan.scanNumberTail head)
  | .scanOperator => return .text (← IndexedScan.scanOperator)
  | .scanName => return .text (← IndexedScan.scanName)

open IndexedScan in
/-- Each operation does the same on positions as on the cursor they stand for. -/
theorem Action.refines (action : Action) : action.indexed.Refines action.scan := by
  cases action with
  | peek => exact refines_peek.map Answer.character
  | restore position => exact (refines_restore position).map fun _ => Answer.done
  | next | accept | acceptAny | acceptIf => exact (refines_acceptIf _).map Answer.character
  | skipWhile inClass => exact (refines_skipWhile inClass).map Answer.flag
  | ignore => exact refines_ignore.map fun _ => Answer.done
  | extract => exact refines_extract.map Answer.characters
  | extractString => exact refines_extractString.map fun s => Answer.text (some s)
  | ignoreBlanks => exact refines_ignoreBlanks.map Answer.flag
  | scanNumber => exact refines_scanNumber.map Answer.text
  | scanNumberTail head => exact (refines_scanNumberTail head).map Answer.text
  | scanOperator => exact refines_scanOperator.map Answer.text
  | scanName => exact refines_scanName.map Answer.text

/-- What a sequence of operations answers. -/
def answers : List Action → Cursor → List Answer
  | [], _ => []
  | action :: actions, c => action.answer c :: answers actions (action.after c)

/-- The answers of a sequence of operations, and the cursor after it, by running them one
after the other. -/
theorem run_mapM_scan (actions : List Action) (c : Cursor) :
    (actions.mapM Action.scan).run c = (answers actions c, after actions c) := by
  induction actions generalizing c with
  | nil => rfl
  | cons action actions ih =>
    rw [List.mapM_cons, StateT.run_bind]
    change ((do
      let rest ← actions.mapM Action.scan
      return action.answer c :: rest : Scan (List Answer)).run (action.after c)) = _
    rw [StateT.run_bind, ih]
    rfl

/-- A sequence of operations does the same on positions as on the cursor they stand for. -/
theorem refines_mapM (actions : List Action) :
    IndexedScan.Refines (actions.mapM Action.indexed) (actions.mapM Action.scan) := by
  induction actions with
  | nil => exact IndexedScan.refines_pure []
  | cons action actions ih =>
    rw [List.mapM_cons, List.mapM_cons]
    exact action.refines.bind fun _ => ih.map _

/-- However a cursor on a text is driven, the same operations on positions in a buffer have
a result and the same answers, and leave positions that stand for the cursor: no lexeme is
ever taken from out of range. -/
theorem exists_represents_after (text : List Char) (actions : List Action) :
    ∃ i : IndexedCursor,
      (actions.mapM Action.indexed).run (.ofText text) =
        some (answers actions (ofText text), i) ∧
      i.Represents text (after actions (ofText text)) := by
  obtain ⟨i, hrun, hi⟩ := refines_mapM actions _ _ _ (IndexedCursor.represents_ofText text)
  rw [run_mapM_scan] at hrun hi
  exact ⟨i, hrun, hi⟩

end Cursor

end FormulaCalculator
