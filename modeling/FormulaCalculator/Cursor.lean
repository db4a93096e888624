import FormulaCalculator.Text.Class

/-!
# A cursor that can go back

A cursor walks over a text and remembers every character it has read since the
current lexeme began. A scan that fails half way goes back to a checkpoint, and
a scan that succeeds extracts the lexeme, which lets go of what is behind.

The text falls into four parts: what is behind the lexeme, of which only the
length is kept; the lexeme; what has been read beyond the cursor; and what has
not been read yet. Looking at a character reads it without passing it. No
operation loses a character, so a lexeme is always the stretch of the text from
`start` to `checkpoint`.
-/

set_option autoImplicit false

namespace FormulaCalculator

/-- A position in a text, with the lexeme that ends there. -/
structure Cursor where
  /-- How many characters stand before the lexeme. -/
  start : Nat
  /-- The characters from the start of the lexeme to the cursor. -/
  lexeme : List Char
  /-- The characters after the cursor that have been read. -/
  buffered : List Char
  /-- The characters that have not been read. -/
  unread : List Char
deriving DecidableEq, Repr

/-- A step of a scan: an answer and the cursor after it. -/
abbrev Scan (α : Type) := StateM Cursor α

namespace Cursor

/-- The cursor at the start of a text. -/
def ofText (text : List Char) : Cursor := ⟨0, [], [], text⟩

/-- All characters after the cursor. -/
def ahead (c : Cursor) : List Char := c.buffered ++ c.unread

/-- How many characters stand before the cursor. -/
def checkpoint (c : Cursor) : Nat := c.start + c.lexeme.length

/-- Reads the character after the cursor, if there is one. -/
def fill (c : Cursor) : Cursor :=
  match c.buffered, c.unread with
  | [], next :: rest => { c with buffered := [next], unread := rest }
  | _, _ => c

/-- Moves past the given number of characters, reading them where needed. -/
def advance (count : Nat) (c : Cursor) : Cursor :=
  { c with
    lexeme := c.lexeme ++ c.ahead.take count
    buffered := c.buffered.drop count
    unread := c.unread.drop (count - c.buffered.length) }

/-- Moves to a position of the text, or as near to it as the start of the
lexeme and the characters read allow. -/
def moveTo (position : Nat) (c : Cursor) : Cursor :=
  let read := c.lexeme ++ c.buffered
  { c with
    lexeme := read.take (position - c.start)
    buffered := read.drop (position - c.start) }

/-- Lets go of the lexeme: the next one starts at the cursor. -/
def dropLexeme (c : Cursor) : Cursor :=
  { c with start := c.checkpoint, lexeme := [] }

/-- Reading a character does not move the cursor. -/
@[simp]
theorem fill_start (c : Cursor) : c.fill.start = c.start := by
  unfold fill
  split <;> rfl

/-- What has been read beyond the cursor is no part of the lexeme. -/
@[simp]
theorem fill_lexeme (c : Cursor) : c.fill.lexeme = c.lexeme := by
  unfold fill
  split <;> rfl

/-- Reading a character does not lose it. -/
@[simp]
theorem fill_ahead (c : Cursor) : c.fill.ahead = c.ahead := by
  unfold fill
  split
  · next hb hu => simp [ahead, hb, hu]
  · rfl

/-- What has been read after reading a character starts with the next one. -/
theorem fill_buffered_head? (c : Cursor) : c.fill.buffered.head? = c.ahead.head? := by
  unfold fill
  split
  · next hb hu => simp [ahead, hb, hu]
  · next h =>
    cases hb : c.buffered with
    | cons a l => simp [ahead, hb]
    | nil =>
      cases hu : c.unread with
      | nil => simp [ahead, hb, hu]
      | cons a l => exact absurd hu (h a l hb)

/-- The lexeme goes on growing from where it starts. -/
@[simp]
theorem advance_start (n : Nat) (c : Cursor) : (c.advance n).start = c.start := rfl

/-- What is passed becomes part of the lexeme, at its end. -/
@[simp]
theorem advance_lexeme (n : Nat) (c : Cursor) :
    (c.advance n).lexeme = c.lexeme ++ c.ahead.take n := rfl

/-- Moving takes characters from the front of what is ahead. -/
@[simp]
theorem advance_ahead (n : Nat) (c : Cursor) : (c.advance n).ahead = c.ahead.drop n := by
  simp [advance, ahead, List.drop_append]

/-- However far the cursor goes back, the lexeme starts where it did. -/
@[simp]
theorem moveTo_start (p : Nat) (c : Cursor) : (c.moveTo p).start = c.start := rfl

/-- Going back and forth within what has been read loses nothing. -/
theorem moveTo_text (p : Nat) (c : Cursor) :
    (c.moveTo p).lexeme ++ (c.moveTo p).ahead = c.lexeme ++ c.ahead := by
  simp [moveTo, ahead, ← List.append_assoc, List.take_append_drop]

/-- Letting go of the lexeme does not move the cursor. -/
@[simp]
theorem dropLexeme_checkpoint (c : Cursor) : c.dropLexeme.checkpoint = c.checkpoint := by
  simp [dropLexeme, checkpoint]

end Cursor

namespace Scan

/-- Where the cursor stands, to come back to. -/
def checkpoint : Scan Nat := return (← get).checkpoint

/-- Moves back to a checkpoint, or forward over characters already read. -/
def restore (position : Nat) : Scan Unit := modify (Cursor.moveTo position)

/-- The character after the cursor, which is read but not passed. -/
def peek : Scan (Option Char) := do
  modify Cursor.fill
  return (← get).buffered.head?

/-- Passes the next character if there is one and it is in the class. -/
def acceptIf (inClass : Char → Bool) : Scan (Option Char) := do
  match ← peek with
  | none => return none
  | some c =>
    if inClass c then
      modify (Cursor.advance 1)
      return some c
    else
      return none

/-- Passes the next character. -/
def next : Scan (Option Char) := acceptIf fun _ => true

/-- Passes the next character if it is the given one. -/
def accept (c : Char) : Scan (Option Char) := acceptIf (· == c)

/-- Passes the next character if it is among the given ones. -/
def acceptAny (cs : List Char) : Scan (Option Char) := acceptIf cs.contains

/-- Passes the characters of a class up to the first one that is not in it,
which is read, and tells whether there was any. -/
def skipWhile (inClass : Char → Bool) : Scan Bool := do
  let run := (← get).ahead.takeWhile inClass
  modify fun c => (c.advance run.length).fill
  return !run.isEmpty

/-- Lets go of the lexeme. -/
def ignore : Scan Unit := modify Cursor.dropLexeme

/-- The lexeme, which is let go of. -/
def extract : Scan (List Char) := do
  let lexeme := (← get).lexeme
  ignore
  return lexeme

/-- The lexeme as a string, which is let go of. -/
def extractString : Scan String := return String.ofList (← extract)

/-- Looking at a character gives the first one ahead. -/
theorem run_peek (c : Cursor) : peek.run c = (c.ahead.head?, c.fill) := by
  rw [← Cursor.fill_buffered_head?]
  rfl

/-- A character in the class is passed, and any other leaves the cursor where it
is. -/
theorem run_acceptIf (inClass : Char → Bool) (c : Cursor) :
    (acceptIf inClass).run c =
      match c.ahead.head? with
      | none => (none, c.fill)
      | some a => if inClass a then (some a, c.fill.advance 1) else (none, c.fill) := by
  rw [← Cursor.fill_buffered_head?]
  change (match c.fill.buffered.head? with
    | none => (pure none : Scan (Option Char))
    | some a => if inClass a then (do modify (Cursor.advance 1); return some a) else pure none)
      c.fill = _
  cases c.fill.buffered.head? with
  | none => rfl
  | some a =>
    dsimp only
    split <;> rfl

/-- A run of characters in the class is passed as a whole. -/
theorem run_skipWhile (inClass : Char → Bool) (c : Cursor) :
    (skipWhile inClass).run c =
      (!(c.ahead.takeWhile inClass).isEmpty,
        (c.advance (c.ahead.takeWhile inClass).length).fill) := rfl

/-- The lexeme is what is extracted. -/
theorem run_extract (c : Cursor) : extract.run c = (c.lexeme, c.dropLexeme) := rfl

end Scan

end FormulaCalculator
