import FormulaCalculator.Cursor.Lexeme

/-!
# A cursor as positions in a buffer

The characters of a text can be kept in a buffer as they are read, from the beginning of
the text on. Then a cursor is two positions in the buffer, where the lexeme starts and how
many characters have been passed, and to move it is arithmetic on positions.

Only taking the lexeme out of the buffer needs the positions to be in order and within the
buffer. Where they are not, it has no result, and neither has the scan.
-/

set_option autoImplicit false

namespace FormulaCalculator

/-- Two positions in the buffer of the characters that have been read. -/
structure IndexedCursor where
  /-- The characters that have been read, from the beginning of the text. -/
  seen : List Char
  /-- The position of the first character of the lexeme. -/
  start : Nat
  /-- How many characters have been passed. -/
  position : Nat
  /-- The characters that have not been read. -/
  unread : List Char
deriving DecidableEq, Repr

/-- A step of a scan on positions, which has no result if a position is out of range. -/
abbrev IndexedScan (α : Type) := StateT IndexedCursor Option α

namespace IndexedCursor

/-- The cursor at the start of a text. -/
def ofText (text : List Char) : IndexedCursor := ⟨[], 0, 0, text⟩

/-- Reads a character into the buffer if all that have been read are passed. -/
def fill (c : IndexedCursor) : IndexedCursor :=
  if c.position = c.seen.length then
    match c.unread with
    | [] => c
    | next :: rest => { c with seen := c.seen ++ [next], unread := rest }
  else
    c

/-- The character after the cursor, which is read but not passed. -/
def peek (c : IndexedCursor) : Option Char × IndexedCursor :=
  (c.fill.seen[c.fill.position]?, c.fill)

/-- Passes the next character if there is one and it is in the class. -/
def acceptIf (inClass : Char → Bool) (c : IndexedCursor) : Option Char × IndexedCursor :=
  match c.peek with
  | (some a, d) => if inClass a then (some a, { d with position := d.position + 1 }) else (none, d)
  | (none, d) => (none, d)

/-- How many characters can be passed. -/
def remaining (c : IndexedCursor) : Nat := c.seen.length - c.position + c.unread.length

/-- Reading a character does not change how many can be passed. -/
theorem remaining_fill (c : IndexedCursor) : c.fill.remaining = c.remaining := by
  unfold fill
  split
  · next hend =>
    cases hunread : c.unread with
    | nil => rfl
    | cons next rest =>
      simp only [remaining, hunread, List.length_append, List.length_cons, List.length_nil]
      omega
  · rfl

/-- A character that is passed cannot be passed again. -/
theorem remaining_acceptIf {inClass : Char → Bool} {c d : IndexedCursor} {a : Char}
    (h : c.acceptIf inClass = (some a, d)) : d.remaining < c.remaining := by
  rw [← c.remaining_fill]
  unfold acceptIf peek at h
  cases hnext : c.fill.seen[c.fill.position]? with
  | none =>
    rw [hnext] at h
    cases h
  | some b =>
    rw [hnext] at h
    obtain ⟨hwithin, -⟩ := List.getElem?_eq_some_iff.mp hnext
    dsimp only at h
    split at h
    · cases h
      simp only [remaining]
      omega
    · cases h

/-- Passes the characters of a class, one after the other. -/
def passWhile (inClass : Char → Bool) (c : IndexedCursor) : IndexedCursor :=
  match _h : c.acceptIf inClass with
  | (some _, d) => d.passWhile inClass
  | (none, d) => d
termination_by c.remaining
decreasing_by exact remaining_acceptIf _h

/-- Moves to a position, or as near to it as the start of the lexeme and the end of the
buffer allow. -/
def moveTo (position : Nat) (c : IndexedCursor) : IndexedCursor :=
  { c with position := min (max position c.start) c.seen.length }

/-- The stretch of the buffer from the start of the lexeme to the cursor, if there is such a
stretch. -/
def lexeme? (c : IndexedCursor) : Option (List Char) :=
  if c.start ≤ c.position ∧ c.position ≤ c.seen.length then
    some (c.seen.extract c.start c.position)
  else
    none

/-- Lets go of the lexeme: the next one starts at the cursor. -/
def dropLexeme (c : IndexedCursor) : IndexedCursor := { c with start := c.position }

end IndexedCursor

namespace IndexedScan

open FormulaCalculator.Text

/-- Where the cursor stands, to come back to. -/
def checkpoint : IndexedScan Nat := return (← get).position

/-- Moves back to a checkpoint, or forward over characters already read. -/
def restore (position : Nat) : IndexedScan Unit := modify (IndexedCursor.moveTo position)

/-- The character after the cursor, which is read but not passed. -/
def peek : IndexedScan (Option Char) := modifyGet IndexedCursor.peek

/-- Passes the next character if there is one and it is in the class. -/
def acceptIf (inClass : Char → Bool) : IndexedScan (Option Char) :=
  modifyGet (IndexedCursor.acceptIf inClass)

/-- Passes the next character. -/
def next : IndexedScan (Option Char) := acceptIf fun _ => true

/-- Passes the next character if it is the given one. -/
def accept (c : Char) : IndexedScan (Option Char) := acceptIf (· == c)

/-- Passes the next character if it is among the given ones. -/
def acceptAny (cs : List Char) : IndexedScan (Option Char) := acceptIf cs.contains

/-- Passes the characters of a class, and tells whether the cursor has moved. -/
def skipWhile (inClass : Char → Bool) : IndexedScan Bool := do
  let origin ← checkpoint
  modify (IndexedCursor.passWhile inClass)
  return decide (origin < (← checkpoint))

/-- Lets go of the lexeme. -/
def ignore : IndexedScan Unit := modify IndexedCursor.dropLexeme

/-- The lexeme, which is let go of. -/
def extract : IndexedScan (List Char) := do
  let lexeme ← (← get).lexeme?
  ignore
  return lexeme

/-- The lexeme as a string, which is let go of. -/
def extractString : IndexedScan String := return String.ofList (← extract)

/-- Passes blanks and lets go of them and of all before them. -/
def ignoreBlanks : IndexedScan Bool := do
  let skipped ← skipWhile isBlankAscii
  ignore
  return skipped

/-- An unsigned number. A point without digits ends it, and so does the mark of an exponent
without digits. -/
def scanNumber : IndexedScan (Option String) := do
  if !(← skipWhile Char.isDigit) then
    return none
  let mark ← checkpoint
  if (← accept '.').isSome then
    if !(← skipWhile Char.isDigit) then
      restore mark
      return some (← extractString)
  let mark ← checkpoint
  if (← acceptAny ['e', 'E']).isSome then
    let _ ← acceptAny ['+', '-']
    if !(← skipWhile Char.isDigit) then
      restore mark
  return some (← extractString)

/-- The digits and points that follow a number which stopped at a point, with the number in
front. -/
def scanNumberTail (head : String) : IndexedScan (Option String) := do
  if (← peek) != some '.' then
    return none
  let _ ← skipWhile isNumeric
  return some (head ++ (← extractString))

/-- The sign of an operator or a parenthesis. -/
def scanOperator : IndexedScan (Option String) := do
  if (← acceptAny Scan.operatorSigns).isNone then
    return none
  return some (← extractString)

/-- A name: a letter or underscore, then letters, digits and underscores. -/
def scanName : IndexedScan (Option String) := do
  if (← acceptIf startsName).isNone then
    return none
  let _ ← skipWhile continuesName
  return some (← extractString)

end IndexedScan

end FormulaCalculator
