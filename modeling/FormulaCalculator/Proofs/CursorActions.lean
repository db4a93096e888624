import FormulaCalculator.Proofs.Lexing

/-!
# Sequences of cursor operations

A cursor is driven by a sequence of operations: looking at a character, passing
characters, going back, letting go of the lexeme, and the scans of numbers, signs,
names and blanks. After each operation its answer can be seen, and where the cursor
stands.

Some operations are speculative: they only look and move. They leave the start of the
lexeme where it is and lose no character, and what has been read stays read. All other
operations let go of the lexeme, together with characters that they pass.
-/

set_option autoImplicit false

namespace FormulaCalculator.Cursor

open FormulaCalculator.Text

/-- An operation of a cursor. -/
inductive Action where
  | next
  | peek
  | restore (position : Nat)
  | ignore
  | extract
  | extractString
  | accept (c : Char)
  | acceptAny (cs : List Char)
  | acceptIf (inClass : Char → Bool)
  | skipWhile (inClass : Char → Bool)
  | ignoreBlanks
  | scanNumber
  | scanNumberTail (head : String)
  | scanOperator
  | scanName

/-- What an operation answers. -/
inductive Answer where
  | done
  | flag (b : Bool)
  | character (c : Option Char)
  | characters (cs : List Char)
  | text (s : Option String)
deriving DecidableEq, Repr

/-- The characters of an answer that is a text. -/
def Answer.toList : Answer → List Char
  | .characters cs => cs
  | .text (some s) => s.toList
  | _ => []

namespace Action

/-- The scan that an operation is. -/
def scan : Action → Scan Answer
  | .next => return .character (← Scan.next)
  | .peek => return .character (← Scan.peek)
  | .restore position => do
    Scan.restore position
    return .done
  | .ignore => do
    Scan.ignore
    return .done
  | .extract => return .characters (← Scan.extract)
  | .extractString => return .text (some (← Scan.extractString))
  | .accept c => return .character (← Scan.accept c)
  | .acceptAny cs => return .character (← Scan.acceptAny cs)
  | .acceptIf inClass => return .character (← Scan.acceptIf inClass)
  | .skipWhile inClass => return .flag (← Scan.skipWhile inClass)
  | .ignoreBlanks => return .flag (← Scan.ignoreBlanks)
  | .scanNumber => return .text (← Scan.scanNumber)
  | .scanNumberTail head => return .text (← Scan.scanNumberTail head)
  | .scanOperator => return .text (← Scan.scanOperator)
  | .scanName => return .text (← Scan.scanName)

/-- What the operation answers at a cursor. -/
def answer (action : Action) (c : Cursor) : Answer := (action.scan.run c).1

/-- The cursor after the operation. -/
def after (action : Action) (c : Cursor) : Cursor := (action.scan.run c).2

/-- The position to which the operation moves the cursor, if that is what it does. -/
def target? : Action → Option Nat
  | .restore position => some position
  | _ => none

/-- Whether the operation only looks and moves. -/
def isSpeculative : Action → Bool
  | .next | .peek | .restore _ | .accept _ | .acceptAny _ | .acceptIf _ | .skipWhile _ => true
  | _ => false

/-- What the operation lets go of: the lexeme where it is dropped, and else the
extracted text, which is in the answer. -/
def released (action : Action) (c : Cursor) : List Char :=
  match action with
  | .ignore => c.lexeme
  | .ignoreBlanks => ((Scan.skipWhile isBlankAscii).run c).2.lexeme
  | .scanNumberTail head => (action.answer c).toList.drop head.toList.length
  | _ => (action.answer c).toList

end Action

/-- The cursor after a sequence of operations. -/
def after : List Action → Cursor → Cursor
  | [], c => c
  | action :: actions, c => after actions (action.after c)

/-- To go on with more operations is to start them where the first ones end. -/
theorem after_append (actions more : List Action) (c : Cursor) :
    after (actions ++ more) c = after more (after actions c) := by
  induction actions generalizing c with
  | nil => rfl
  | cons action actions ih => exact ih (action.after c)

/-! ## Looking and moving -/

/-- The cursor `d` is `c` after some looking and moving: no character is lost, the lexeme
starts where it did, and as much has been read at least. -/
structure Moved (c d : Cursor) : Prop where
  start_eq : d.start = c.start
  text_eq : d.lexeme ++ d.ahead = c.lexeme ++ c.ahead
  read_le : c.lexeme.length + c.buffered.length ≤ d.lexeme.length + d.buffered.length

/-- A cursor that does nothing has lost nothing. -/
theorem Moved.refl (c : Cursor) : Moved c c := ⟨rfl, rfl, Nat.le_refl _⟩

/-- Looking and moving can go on for as long as one likes. -/
theorem Moved.trans {c d e : Cursor} (h : Moved c d) (h' : Moved d e) : Moved c e :=
  ⟨h'.start_eq.trans h.start_eq, h'.text_eq.trans h.text_eq, Nat.le_trans h.read_le h'.read_le⟩

/-- Reading one more character adds to what has been read and takes it from what has
not. -/
theorem moved_fill (c : Cursor) : Moved c c.fill := by
  refine ⟨c.fill_start, by simp, ?_⟩
  unfold fill
  split
  · next hb hu => simp [hb]
  · exact Nat.le_refl _

/-- Passing characters makes the lexeme longer by what is taken from ahead. -/
theorem moved_advance (n : Nat) (c : Cursor) : Moved c (c.advance n) := by
  refine ⟨rfl, ?_, ?_⟩
  · rw [advance_lexeme, advance_ahead, List.append_assoc, List.take_append_drop]
  · simp only [advance, ahead, List.length_append, List.length_take, List.length_drop]
    omega

/-- Going to a position only moves characters between the lexeme and what is read beyond
it. -/
theorem moved_moveTo (position : Nat) (c : Cursor) : Moved c (c.moveTo position) := by
  refine ⟨rfl, c.moveTo_text position, ?_⟩
  simp only [moveTo, List.length_take, List.length_drop, List.length_append]
  omega

/-- To pass a character or to refuse it, the cursor has to look at it in any case. -/
theorem moved_acceptIf (inClass : Char → Bool) (c : Cursor) :
    Moved c ((Scan.acceptIf inClass).run c).2 := by
  rw [Scan.run_acceptIf]
  split
  · exact moved_fill c
  · split
    · exact (moved_fill c).trans (moved_advance 1 _)
    · exact moved_fill c

/-- A speculative operation only looks and moves. -/
theorem Action.moved_after {action : Action} (h : action.isSpeculative = true) (c : Cursor) :
    Moved c (action.after c) := by
  cases action with
  | peek => exact moved_fill c
  | restore position => exact moved_moveTo position c
  | next | accept | acceptAny | acceptIf => exact moved_acceptIf _ c
  | skipWhile inClass => exact (moved_advance _ c).trans (moved_fill _)
  | ignore | extract | extractString | ignoreBlanks | scanNumber | scanNumberTail
  | scanOperator | scanName => cases h

/-- It lets go of nothing. -/
theorem Action.released_of_isSpeculative {action : Action} (h : action.isSpeculative = true)
    (c : Cursor) : action.released c = [] := by
  cases action with
  | next | peek | restore | accept | acceptAny | acceptIf | skipWhile => rfl
  | ignore | extract | extractString | ignoreBlanks | scanNumber | scanNumberTail
  | scanOperator | scanName => cases h

end FormulaCalculator.Cursor

namespace FormulaCalculator

open Text Lexeme

/-! ## Letting go of the lexeme -/

/-- From the view `v`, the scan extracts the lexeme with some characters that it passes,
as a text behind the given head, or it leaves what is in view. -/
inductive Scan.Extracts (scan : Scan (Option String)) (head : String) (v : View) : Prop where
  | nothing : scan.Gives v none v → Extracts scan head v
  | lexeme {text : String} {passed rest : List Char} :
      text.toList = head.toList ++ (v.lexeme ++ passed) → passed ++ rest = v.ahead →
      scan.Gives v (some text) ⟨v.checkpoint + passed.length, [], rest⟩ → Extracts scan head v

namespace Scan

/-- A text starts with a character of a class or it does not. -/
theorem startsIn_or_not (inClass : Char → Bool) (text : List Char) :
    (∀ first ∈ text.head?, inClass first = false) ∨
      ∃ first rest, text = first :: rest ∧ inClass first = true := by
  cases text with
  | nil => exact .inl nofun
  | cons first rest =>
    cases hfirst : inClass first with
    | false => exact .inl fun _ h => Option.some_inj.mp h ▸ hfirst
    | true => exact .inr ⟨first, rest, rfl, hfirst⟩

/-- A number is the longest numeral ahead, or there is no digit ahead and nothing
happens. -/
theorem extracts_scanNumber (v : View) : scanNumber.Extracts "" v := by
  rcases startsIn_or_not Char.isDigit v.ahead with hnot | ⟨first, rest, hahead, hdigit⟩
  · exact .nothing (gives_scanNumber_none hnot)
  · exact .lexeme (by simp) (splitNumber_append v.ahead) (gives_scanNumber hahead hdigit)

/-- The sign of an operator is one character, or there is none ahead and nothing
happens. -/
theorem extracts_scanOperator (v : View) : scanOperator.Extracts "" v := by
  rcases startsIn_or_not operatorSigns.contains v.ahead with hnot | ⟨first, rest, hahead, hsign⟩
  · exact .nothing (gives_scanOperator_none hnot)
  · have hgives : scanOperator.Gives v (some (String.ofList (v.lexeme ++ [first])))
        ⟨v.checkpoint + [first].length, [], rest⟩ := gives_scanOperator hahead hsign
    exact .lexeme (by simp) (by rw [hahead, List.singleton_append]) hgives

/-- A name is the whole run of its characters, or none starts here and nothing happens. -/
theorem extracts_scanName (v : View) : scanName.Extracts "" v := by
  rcases startsIn_or_not startsName v.ahead with hnot | ⟨first, rest, hahead, hname⟩
  · exact .nothing (gives_scanName_none hnot)
  · refine .lexeme (by simp) ?_ (gives_scanName hahead hname)
    rw [List.cons_append, List.takeWhile_append_dropWhile, hahead]

/-- The rest of a bad literal is put behind its head, or there is no point ahead and
nothing happens. -/
theorem extracts_scanNumberTail (head : String) (v : View) :
    (scanNumberTail head).Extracts head v := by
  by_cases hpoint : v.ahead.head? = some '.'
  · exact .lexeme (by simp) List.takeWhile_append_dropWhile (gives_scanNumberTail head hpoint)
  · exact .nothing (gives_scanNumberTail_none head hpoint)

end Scan

namespace Cursor.Action

/-- From the view `v`, the operation leaves what is in view and lets go of nothing, or it
lets go of the lexeme with some characters that it passes. -/
inductive Settles (action : Action) (v : View) : Prop where
  | stays {answer : Answer} : action.scan.Gives v answer v →
      (∀ c : Cursor, c.view = v → action.released c = []) → Settles action v
  | letsGo {answer : Answer} {passed rest : List Char} : passed ++ rest = v.ahead →
      action.scan.Gives v answer ⟨v.checkpoint + passed.length, [], rest⟩ →
      (∀ c : Cursor, c.view = v → action.released c = v.lexeme ++ passed) → Settles action v

/-- An operation that is one of the scans settles the lexeme as the scan does. What it
lets go of is its answer without the head, which is not from the text. -/
theorem settles_of_extracts {action : Action} {scan : Scan (Option String)} {head : String}
    {v : View} (h : scan.Extracts head v)
    (hscan : action.scan = do return .text (← scan))
    (hreleased : ∀ c : Cursor,
      action.released c = (action.answer c).toList.drop head.toList.length) :
    action.Settles v := by
  have hgives {text : Option String} {w : View} (hgives : scan.Gives v text w) :
      action.scan.Gives v (.text text) w := hscan ▸ hgives.bind (Scan.gives_pure _ _)
  cases h with
  | nothing hnone =>
    refine .stays (hgives hnone) fun c hc => ?_
    rw [hreleased, show action.answer c = .text none from (hgives hnone c hc).1]
    exact List.drop_nil
  | lexeme htext hsplit hsome =>
    refine .letsGo hsplit (hgives hsome) fun c hc => ?_
    rw [hreleased, show action.answer c = .text (some _) from (hgives hsome c hc).1]
    rw [Answer.toList, htext, List.drop_left]

/-- An operation that is not speculative settles the lexeme. -/
theorem settles {action : Action} (h : action.isSpeculative = false) (v : View) :
    action.Settles v := by
  cases action with
  | next | peek | restore | accept | acceptAny | acceptIf | skipWhile => cases h
  | ignore =>
    refine .letsGo (List.nil_append _) ((Scan.gives_ignore v).bind (Scan.gives_pure _ _)) ?_
    rintro c rfl
    exact (List.append_nil _).symm
  | extract =>
    refine .letsGo (List.nil_append _) ((Scan.gives_extract v).bind (Scan.gives_pure _ _)) ?_
    rintro c rfl
    exact (List.append_nil _).symm
  | extractString =>
    refine .letsGo (List.nil_append _) ((Scan.gives_extractString v).bind (Scan.gives_pure _ _)) ?_
    rintro c rfl
    exact (String.toList_ofList).trans (List.append_nil _).symm
  | ignoreBlanks =>
    refine .letsGo List.takeWhile_append_dropWhile
      ((Scan.gives_ignoreBlanks v).bind (Scan.gives_pure _ _)) fun c hc => ?_
    exact congrArg View.lexeme (Scan.gives_skipWhile isBlankAscii v c hc).2
  | scanNumber => exact settles_of_extracts (Scan.extracts_scanNumber v) rfl fun _ => rfl
  | scanNumberTail head =>
    exact settles_of_extracts (Scan.extracts_scanNumberTail head v) rfl fun _ => rfl
  | scanOperator => exact settles_of_extracts (Scan.extracts_scanOperator v) rfl fun _ => rfl
  | scanName => exact settles_of_extracts (Scan.extracts_scanName v) rfl fun _ => rfl

end Cursor.Action

end FormulaCalculator
