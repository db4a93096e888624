import Mathlib.Data.List.DropRight
import FormulaCalculator.Text.Blank

/-!
# Texts with blanks around them and words with blanks between them

Trimming and cutting into words take blanks away. Each is described from the other
side, by the texts that blanks can make of what is left: a text with any blanks
around it is trimmed to it, and words with any blanks around them, some between two
of them, are cut into these words. Neither gives back anything else.
-/

set_option autoImplicit false

namespace FormulaCalculator.Text

variable {text inner gap word rest before behind : List Char} {found : List (List Char)} {c : Char}

/-- A text of nothing but blanks. -/
def IsBlanks (text : List Char) : Prop := ∀ c ∈ text, isBlank c = true

/-- A text with no blank at its ends. -/
structure IsTrimmed (text : List Char) : Prop where
  first : ∀ c ∈ text.head?, isBlank c = false
  last : ∀ c ∈ text.getLast?, isBlank c = false

/-- A text with no blank in it that is not empty. -/
structure IsWord (text : List Char) : Prop where
  ne_nil : text ≠ []
  not_blank : ∀ c ∈ text, isBlank c = false

/-- A trimmed text with blanks around it. -/
structure Padded (inner text : List Char) : Prop where
  isTrimmed : IsTrimmed inner
  around : ∃ before behind, IsBlanks before ∧ IsBlanks behind ∧ text = before ++ inner ++ behind

/-- Words with blanks around them: what is behind a word is nothing or starts with a
blank. -/
inductive Spaced : List (List Char) → List Char → Prop where
  | blanks {gap : List Char} (hgap : IsBlanks gap) : Spaced [] gap
  | word {gap word rest : List Char} {words : List (List Char)} (hgap : IsBlanks gap)
      (hword : IsWord word) (hends : ∀ c ∈ rest.head?, isBlank c = true)
      (hrest : Spaced words rest) : Spaced (word :: words) (gap ++ word ++ rest)

/-! ## Blanks -/

/-- The gap between two things may be missing altogether. -/
theorem isBlanks_nil : IsBlanks [] := List.forall_mem_nil _

/-- A gap can be made wider by one blank in front. -/
theorem IsBlanks.cons (hc : isBlank c = true) (h : IsBlanks gap) : IsBlanks (c :: gap) :=
  List.forall_mem_cons.mpr ⟨hc, h⟩

/-- Two gaps behind each other are one gap. -/
theorem IsBlanks.append (hbefore : IsBlanks before) (h : IsBlanks gap) : IsBlanks (before ++ gap) :=
  List.forall_mem_append.mpr ⟨hbefore, h⟩

/-- A mark that is no blank does not occur in a gap. -/
theorem IsBlanks.not_mem (h : IsBlanks gap) (hc : isBlank c = false) : c ∉ gap := by
  intro hmem
  rw [h c hmem] at hc
  cases hc

/-- What is trimmed away in front is a gap. -/
theorem isBlanks_takeWhile (text : List Char) : IsBlanks (text.takeWhile isBlank) := by
  intro c hc
  exact List.mem_takeWhile_imp hc

/-- What is trimmed away behind is a gap. -/
theorem isBlanks_rtakeWhile (text : List Char) : IsBlanks (text.rtakeWhile isBlank) := by
  intro c hc
  exact List.mem_rtakeWhile_imp hc

/-! ## Trimming -/

/-- Trimming takes the blanks away in front first and then those behind, with the two
operations of lists that do so. -/
theorem trim_eq_rdropWhile (text : List Char) :
    trim text = (text.dropWhile isBlank).rdropWhile isBlank := rfl

/-- Blanks in front of a text make no difference to what it is trimmed to. -/
theorem trim_blanks_append (hgap : IsBlanks gap) (text : List Char) :
    trim (gap ++ text) = trim text := by
  rw [trim_eq_rdropWhile, List.dropWhile_append_of_pos hgap, ← trim_eq_rdropWhile]

/-- Blanks behind a text are taken away together with those that the text ends with. -/
theorem rdropWhile_append_blanks (hgap : IsBlanks gap) (text : List Char) :
    (text ++ gap).rdropWhile isBlank = text.rdropWhile isBlank := by
  have hback : ∀ c ∈ gap.reverse, isBlank c = true := fun c hc => hgap c (List.mem_reverse.mp hc)
  rw [List.rdropWhile, List.reverse_append, List.dropWhile_append_of_pos hback, ← List.rdropWhile]

/-- Blanks behind a text make no difference to what it is trimmed to, not even if the text
is all blank. -/
theorem trim_append_blanks (hgap : IsBlanks gap) (text : List Char) :
    trim (text ++ gap) = trim text := by
  rw [trim_eq_rdropWhile, List.dropWhile_append, trim_eq_rdropWhile]
  split
  · next hblank =>
    have hnone : gap.dropWhile isBlank = [] := List.dropWhile_eq_nil_iff.mpr hgap
    rw [hnone, List.isEmpty_iff.mp hblank]
  · exact rdropWhile_append_blanks hgap _

/-- Blanks are taken away in front only up to the first character that is none. -/
theorem dropWhile_append_cons (hc : isBlank c = false) (before behind : List Char) :
    (before ++ c :: behind).dropWhile isBlank = before.dropWhile isBlank ++ c :: behind := by
  rw [List.dropWhile_append]
  split
  · next hblank =>
    rw [List.isEmpty_iff.mp hblank, List.dropWhile_cons_of_neg (by simp [hc]), List.nil_append]
  · rfl

/-- Blanks are taken away behind only down to the last character that is none. -/
theorem rdropWhile_append_cons (hc : isBlank c = false) (before behind : List Char) :
    (before ++ c :: behind).rdropWhile isBlank = before ++ c :: behind.rdropWhile isBlank := by
  have h := dropWhile_append_cons hc behind.reverse before.reverse
  simp only [List.rdropWhile, List.reverse_append, List.reverse_cons, List.append_assoc,
    List.singleton_append, h, List.reverse_reverse]

/-- A character that is no blank keeps what is behind it from the blanks before it, and
what is before it from the blanks behind it. -/
theorem trim_append_cons (hc : isBlank c = false) (before behind : List Char) :
    trim (before ++ c :: behind) =
      before.dropWhile isBlank ++ c :: behind.rdropWhile isBlank := by
  rw [trim_eq_rdropWhile, dropWhile_append_cons hc, rdropWhile_append_cons hc]

/-- A word in front of a text loses nothing. -/
theorem trim_word_append (hword : IsWord word) (rest : List Char) :
    trim (word ++ rest) = word ++ rest.rdropWhile isBlank := by
  rcases word.eq_nil_or_concat with rfl | ⟨front, last, rfl⟩
  · exact absurd rfl hword.ne_nil
  rw [List.concat_eq_append] at hword ⊢
  obtain ⟨hfront, hlast⟩ := List.forall_mem_append.mp hword.not_blank
  have hkept : front.dropWhile isBlank = front := by
    rw [List.dropWhile_eq_self_iff]
    intro hpos
    simp [hfront _ (List.getElem_mem hpos)]
  rw [List.append_assoc, List.singleton_append, trim_append_cons (hlast last (by simp)), hkept,
    List.append_assoc, List.singleton_append]

/-- A text that has lost its blanks in front already is trimmed to the same. -/
theorem trim_dropWhile (text : List Char) : trim (text.dropWhile isBlank) = trim text := by
  rw [trim_eq_rdropWhile, List.dropWhile_idempotent, ← trim_eq_rdropWhile]

/-- A text that has lost its blanks behind already is trimmed to the same. -/
theorem trim_rdropWhile (text : List Char) : trim (text.rdropWhile isBlank) = trim text := by
  conv => rhs; rw [← List.rdropWhile_append_rtakeWhile (p := isBlank) (l := text)]
  exact (trim_append_blanks (isBlanks_rtakeWhile text) _).symm

/-- After trimming there is no blank at either end. -/
theorem isTrimmed_trim (text : List Char) : IsTrimmed (trim text) := by
  rw [trim_eq_rdropWhile]
  constructor
  · intro c hc
    obtain ⟨more, hfront⟩ := List.rdropWhile_prefix isBlank (text.dropWhile isBlank)
    have hhead := List.head?_dropWhile_not isBlank text
    rw [← hfront, List.head?_append, Option.mem_def.mp hc] at hhead
    simpa using hhead
  · intro c hc
    obtain ⟨hne, rfl⟩ := List.mem_getLast?_eq_getLast hc
    simpa using List.rdropWhile_last_not isBlank (text.dropWhile isBlank) hne

/-- Where there is no blank at either end, nothing is trimmed away. -/
theorem IsTrimmed.trim (h : IsTrimmed inner) : trim inner = inner := by
  have hfirst : inner.dropWhile isBlank = inner := by
    cases inner with
    | nil => rfl
    | cons c more => rw [List.dropWhile_cons_of_neg (by simp [h.first c rfl])]
  have hlast : inner.rdropWhile isBlank = inner := by
    rw [List.rdropWhile_eq_self_iff]
    intro hne
    simp [h.last _ (List.getLast?_eq_some_getLast hne)]
  rw [trim_eq_rdropWhile, hfirst, hlast]

/-- A text trims to what it is made of by putting blanks around it. -/
theorem trim_eq_iff : Text.trim text = inner ↔ Padded inner text := by
  constructor
  · rintro rfl
    refine ⟨isTrimmed_trim text, text.takeWhile isBlank,
      (text.dropWhile isBlank).rtakeWhile isBlank, isBlanks_takeWhile text, isBlanks_rtakeWhile _,
      ?_⟩
    rw [trim_eq_rdropWhile, List.append_assoc, List.rdropWhile_append_rtakeWhile,
      List.takeWhile_append_dropWhile]
  · rintro ⟨hinner, before, behind, hbefore, hbehind, rfl⟩
    rw [trim_append_blanks hbehind, trim_blanks_append hbefore, hinner.trim]

/-- A mark that is missing in a text is missing in the padded text too, for padding is all
blanks. -/
theorem Padded.not_mem (h : Padded inner text) (hc : isBlank c = false) (hnot : c ∉ inner) :
    c ∉ text := by
  obtain ⟨-, before, behind, hbefore, hbehind, rfl⟩ := h
  simp only [List.mem_append, not_or]
  exact ⟨⟨hbefore.not_mem hc, hnot⟩, hbehind.not_mem hc⟩

/-- Trimming adds no character. -/
theorem mem_of_mem_trim (h : c ∈ trim text) : c ∈ text :=
  (List.dropWhile_suffix _).subset ((List.rdropWhile_prefix _ _).subset h)

/-- What a trimmed text starts with is in the text, behind blanks. -/
theorem exists_of_prefix_trim (h : word <+: trim text) : ∃ before rest behind, IsBlanks before ∧
    IsBlanks behind ∧ trim text = word ++ rest ∧ text = before ++ word ++ (rest ++ behind) := by
  obtain ⟨rest, hrest⟩ := h
  obtain ⟨-, before, behind, hbefore, hbehind, htext⟩ := trim_eq_iff.mp hrest.symm
  exact ⟨before, rest, behind, hbefore, hbehind, hrest.symm, by simpa using htext⟩

/-! ## Words -/

/-- What has been cut off, reading from the end: the word in front, which is empty where
a blank is in front, and the words behind it. -/
def cutWords (text : List Char) : List Char × List (List Char) :=
  text.foldr (fun c (word, words) => consWord c word words) ([], [])

/-- The word that is still open at the front of a text counts only if it has a
character. -/
theorem words_eq (text : List Char) :
    words text = if (cutWords text).1.isEmpty then (cutWords text).2
      else (cutWords text).1 :: (cutWords text).2 := rfl

/-- Cutting a text goes from its end to its front, one character at a time. -/
theorem cutWords_cons (c : Char) (text : List Char) :
    cutWords (c :: text) = consWord c (cutWords text).1 (cutWords text).2 := rfl

/-- A blank closes the word behind it, and the next one is not open yet. -/
theorem cutWords_cons_blank (hc : isBlank c = true) (text : List Char) :
    cutWords (c :: text) = ([], words text) := by
  rw [cutWords_cons, consWord, if_pos hc, words_eq]

/-- A character that is no blank goes to the word that is open behind it. -/
theorem cutWords_cons_other (hc : isBlank c = false) (text : List Char) :
    cutWords (c :: text) = (c :: (cutWords text).1, (cutWords text).2) := by
  rw [cutWords_cons, consWord, if_neg (by simp [hc])]

/-- One blank in front of a text makes no word. -/
theorem words_cons_blank (hc : isBlank c = true) (text : List Char) :
    words (c :: text) = words text := by
  rw [words_eq, cutWords_cons_blank hc]
  rfl

/-- A gap in front of a text makes no word. -/
theorem words_blanks_append (hgap : IsBlanks gap) (text : List Char) :
    words (gap ++ text) = words text := by
  induction gap with
  | nil => rfl
  | cons c gap ih =>
    obtain ⟨hc, hgap⟩ := List.forall_mem_cons.mp hgap
    rw [List.cons_append, words_cons_blank hc, ih hgap]

/-- What ends a word is in no word itself. -/
theorem cutWords_of_ends (hends : ∀ c ∈ rest.head?, isBlank c = true) :
    cutWords rest = ([], words rest) := by
  cases rest with
  | nil => rfl
  | cons c rest => rw [cutWords_cons_blank (hends c rfl), words_cons_blank (hends c rfl)]

/-- Characters without a blank, with a blank or the end behind them, are the open word of
the text. -/
theorem cutWords_append (hword : ∀ c ∈ word, isBlank c = false)
    (hends : ∀ c ∈ rest.head?, isBlank c = true) :
    cutWords (word ++ rest) = (word, words rest) := by
  induction word with
  | nil => exact cutWords_of_ends hends
  | cons c word ih =>
    obtain ⟨hc, hword⟩ := List.forall_mem_cons.mp hword
    rw [List.cons_append, cutWords_cons_other hc, ih hword]

/-- A word with a blank or the end behind it is cut off as the first word. -/
theorem words_append (hword : IsWord word) (hends : ∀ c ∈ rest.head?, isBlank c = true) :
    words (word ++ rest) = word :: words rest := by
  rw [words_eq, cutWords_append hword.not_blank hends, if_neg (by simpa using hword.ne_nil)]

/-- Words with blanks between them are cut into these words again, whatever the blanks. -/
theorem Spaced.words (h : Spaced found text) : words text = found := by
  induction h with
  | @blanks gap hgap =>
    have hnone := words_blanks_append hgap []
    rwa [List.append_nil] at hnone
  | word hgap hword hends _ ih =>
    rw [List.append_assoc, words_blanks_append hgap, words_append hword hends, ih]

/-- One more blank in front leaves the words as they are. -/
theorem Spaced.cons (h : Spaced found text) (hc : isBlank c = true) : Spaced found (c :: text) := by
  cases h with
  | blanks hgap => exact .blanks (hgap.cons hc)
  | word hgap hword hends hrest => exact .word (hgap.cons hc) hword hends hrest

/-- Blanks behind the last word leave the words as they are. -/
theorem Spaced.append_blanks (h : Spaced found text) (hgap : IsBlanks gap) :
    Spaced found (text ++ gap) := by
  induction h with
  | blanks hbefore => exact .blanks (hbefore.append hgap)
  | @word before word rest words hbefore hword hends hrest ih =>
    rw [List.append_assoc]
    refine .word hbefore hword ?_ ih
    intro c hc
    cases rest with
    | nil => exact hgap c (List.mem_of_mem_head? hc)
    | cons d rest => exact hends c hc

/-- A word in front counts as one only if it is not empty. -/
theorem Spaced.append_front (hword : ∀ c ∈ word, isBlank c = false)
    (hends : ∀ c ∈ rest.head?, isBlank c = true) (hrest : Spaced found rest) :
    Spaced (if word.isEmpty then found else word :: found) (word ++ rest) := by
  split
  · next hempty => rwa [List.isEmpty_iff.mp hempty]
  · next hempty =>
    exact .word isBlanks_nil ⟨by simpa using hempty, hword⟩ hends hrest

/-- What has been cut off is the word in front, and the words behind what ends it. -/
theorem exists_cutWords (text : List Char) : ∃ rest, text = (cutWords text).1 ++ rest ∧
    (∀ c ∈ (cutWords text).1, isBlank c = false) ∧ (∀ c ∈ rest.head?, isBlank c = true) ∧
    Spaced (cutWords text).2 rest := by
  induction text with
  | nil => exact ⟨[], rfl, List.forall_mem_nil _, by simp, .blanks isBlanks_nil⟩
  | cons c text ih =>
    obtain ⟨rest, htext, hword, hends, hrest⟩ := ih
    cases hc : isBlank c with
    | true =>
      have hspaced := hrest.append_front hword hends
      rw [← htext, ← words_eq] at hspaced
      rw [cutWords_cons_blank hc]
      exact ⟨c :: text, rfl, List.forall_mem_nil _, by simpa using hc, hspaced.cons hc⟩
    | false =>
      rw [cutWords_cons_other hc]
      exact ⟨rest, congrArg (c :: ·) htext, List.forall_mem_cons.mpr ⟨hc, hword⟩, hends, hrest⟩

/-- Every text is the words that it is cut into, with blanks between them. -/
theorem spaced_words (text : List Char) : Spaced (Text.words text) text := by
  obtain ⟨rest, htext, hword, hends, hrest⟩ := exists_cutWords text
  have hspaced := hrest.append_front hword hends
  rwa [← htext, ← words_eq] at hspaced

/-- Blanks at the end of a text make no word. -/
theorem words_rdropWhile (text : List Char) :
    Text.words (text.rdropWhile isBlank) = Text.words text := by
  have h := (spaced_words (text.rdropWhile isBlank)).append_blanks (isBlanks_rtakeWhile text)
  rw [List.rdropWhile_append_rtakeWhile] at h
  exact h.words.symm

/-- A text is cut into the words that it is made of with blanks around them. -/
theorem words_eq_iff : Text.words text = found ↔ Spaced found text := by
  constructor
  · rintro rfl
    exact spaced_words text
  · exact Spaced.words

end FormulaCalculator.Text
