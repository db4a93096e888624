import FormulaCalculator.Text.Cluster.Conjunct
import FormulaCalculator.Text.Cluster.Pictograph
import FormulaCalculator.Text.Cluster.Spacing
import FormulaCalculator.Text.Extending

/-!
# Roles of characters in clusters

Where a cluster of characters ends depends on the roles of the characters alone.
Every character has one role; most have none of the special ones.
-/

set_option autoImplicit false

namespace FormulaCalculator.Text

/-- What a character does where two clusters could meet. -/
inductive Role where
  | carriageReturn
  | lineFeed
  | control
  /-- A mark of the character before it. -/
  | extending
  /-- A mark that links the consonant before it to the one after it. -/
  | linker
  /-- The mark that keeps two consonants apart. -/
  | nonJoiner
  /-- The mark that makes one picture of two. -/
  | joiner
  | spacing
  /-- A sign that belongs to the character after it. -/
  | leading
  /-- A first consonant of a syllable of Hangul. -/
  | initial
  /-- A vowel of a syllable of Hangul. -/
  | medial
  /-- A last consonant of a syllable of Hangul. -/
  | final
  /-- A syllable of Hangul that ends with its vowel. -/
  | openSyllable
  /-- A syllable of Hangul that ends with a consonant. -/
  | closedSyllable
  | flagLetter
  | pictograph
  | consonant
  | plain
deriving DecidableEq, Repr

/-- The ranges of characters that end lines, control something or only say how to
set the text. -/
def controlRanges : List CodeRange := codeRanges
  [(0x0, 0x1f), (0x7f, 0x9f), (0xad, 0xad), (0x61c, 0x61c), (0x180e, 0x180e), (0x200b, 0x200b),
   (0x200e, 0x200f), (0x2028, 0x202e), (0x2060, 0x206f), (0xfeff, 0xfeff), (0xfff0, 0xfffb),
   (0x13430, 0x1343f), (0x1bca0, 0x1bca3), (0x1d173, 0x1d17a), (0xe0000, 0xe001f),
   (0xe0080, 0xe00ff), (0xe01f0, 0xe0fff)]

/-- The ranges of signs that belong to the character after them. -/
def leadingRanges : List CodeRange := codeRanges
  [(0x600, 0x605), (0x6dd, 0x6dd), (0x70f, 0x70f), (0x890, 0x891), (0x8e2, 0x8e2), (0xd4e, 0xd4e),
   (0x110bd, 0x110bd), (0x110cd, 0x110cd), (0x111c2, 0x111c3), (0x113d1, 0x113d1),
   (0x1193f, 0x1193f), (0x11941, 0x11941), (0x11a84, 0x11a89), (0x11d46, 0x11d46),
   (0x11f02, 0x11f02)]

/-- The ranges of first consonants of Hangul. -/
def initialRanges : List CodeRange := codeRanges [(0x1100, 0x115f), (0xa960, 0xa97c)]

/-- The ranges of vowels of Hangul, and of the vowels of Kirat Rai, which follow
one another in the same way. -/
def medialRanges : List CodeRange := codeRanges
  [(0x1160, 0x11a7), (0xd7b0, 0xd7c6), (0x16d63, 0x16d63), (0x16d67, 0x16d6a)]

/-- The ranges of last consonants of Hangul. -/
def finalRanges : List CodeRange := codeRanges [(0x11a8, 0x11ff), (0xd7cb, 0xd7fb)]

/-- Whether a character is a whole syllable of Hangul. -/
def isSyllable (c : Char) : Bool := 0xac00 ≤ c.toNat && c.toNat ≤ 0xd7a3

/-- The role of a whole syllable. The syllables are ordered by their first
consonant, their vowel and their last consonant; of the last there are 27, and
the syllable without one stands in front of them. -/
def syllableRole (c : Char) : Role :=
  if (c.toNat - 0xac00) % 28 = 0 then .openSyllable else .closedSyllable

namespace Role

/-- The role of a character. -/
def of (c : Char) : Role :=
  if c == '\r' then .carriageReturn
  else if c == '\n' then .lineFeed
  else if inRanges controlRanges c then .control
  else if c == '\u200c' then .nonJoiner
  else if c == '\u200d' then .joiner
  else if isLinker c then .linker
  else if isExtending c || isSkinTone c then .extending
  else if isSpacing c then .spacing
  else if inRanges leadingRanges c then .leading
  else if inRanges initialRanges c then .initial
  else if inRanges medialRanges c then .medial
  else if inRanges finalRanges c then .final
  else if isSyllable c then syllableRole c
  else if isFlagLetter c then .flagLetter
  else if isPictograph c then .pictograph
  else if isConsonant c then .consonant
  else .plain

/-- Whether the role belongs to a character that is always a cluster of its own,
but for a line feed after a carriage return. -/
def isControl : Role → Bool
  | carriageReturn | lineFeed | control => true
  | _ => false

/-- Whether the role belongs to a mark that has no width. -/
def isMark : Role → Bool
  | extending | linker | nonJoiner => true
  | _ => false

/-- Whether the role belongs to a mark that can stand between the consonants of a
conjunct. -/
def isConjunctMark : Role → Bool
  | extending | linker | joiner => true
  | _ => false

end Role

end FormulaCalculator.Text
