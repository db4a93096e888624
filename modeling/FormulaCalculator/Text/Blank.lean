/-!
# Blanks in any script

The characters that separate words in any script, which Unicode calls white
space, and the two things they are good for: trimming a text and cutting it
into words.
-/

set_option autoImplicit false

namespace FormulaCalculator.Text

/-- Whether a character is white space. -/
def isBlank (c : Char) : Bool :=
  ('\t' ≤ c && c ≤ '\r') || c == ' ' || c == '\u0085' || c == '\u00a0' || c == '\u1680' ||
    ('\u2000' ≤ c && c ≤ '\u200a') || c == '\u2028' || c == '\u2029' || c == '\u202f' ||
    c == '\u205f' || c == '\u3000'

/-- White space of ASCII is blank. -/
theorem isBlank_of_isWhitespace {c : Char} (h : c.isWhitespace = true) : isBlank c = true := by
  simp only [Char.isWhitespace, Bool.or_eq_true, decide_eq_true_eq] at h
  rcases h with ((h | h) | h) | h <;> subst h <;> decide

/-- The text without blanks at its ends. -/
def trim (text : List Char) : List Char :=
  ((text.dropWhile isBlank).reverse.dropWhile isBlank).reverse

/-- Puts a character in front of the words of a text. A blank ends a word, and
words that would be empty are left out. -/
def consWord (c : Char) (word : List Char) (words : List (List Char)) :
    List Char × List (List Char) :=
  if isBlank c then ([], if word.isEmpty then words else word :: words)
  else (c :: word, words)

/-- The words of a text, which blanks separate. -/
def words (text : List Char) : List (List Char) :=
  let (word, words) := text.foldr (fun c (word, words) => consWord c word words) ([], [])
  if word.isEmpty then words else word :: words

end FormulaCalculator.Text
