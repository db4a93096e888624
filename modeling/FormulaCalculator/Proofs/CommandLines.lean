import FormulaCalculator.Command
import FormulaCalculator.Proofs.BlankSeparation

/-!
# Lines that ask for a command

Each command can be written down in many lines: with more or fewer blanks around the
line and around the parts of the command, and with marks of other commands inside the
parts. `Written` says which lines these are, without cutting a line up, and a line is
taken for a command exactly if it is one of them. So no line can be read in two ways:
an `@` in a formula is no mark as long as there is one behind the formula, and keys may
look like marks.
-/

set_option autoImplicit false

namespace FormulaCalculator.Command

open FormulaCalculator.Text

variable {command : Command} {mark text line before behind padded : List Char} {c : Char}

/-- The mark of a line of keys. -/
def keysMark : List Char := [':', 'r', 'p', 'n']

/-- The mark of a line that asks for a derivative. -/
def deriveMark : List Char := [':', 'd']

/-- A line that starts with neither mark. -/
structure Unmarked (line : List Char) : Prop where
  keys : ¬ keysMark <+: line
  derive : ¬ deriveMark <+: line

/-- The lines in which a command is written down. The blanks directly behind a mark may
be missing. -/
inductive Written : Command → List Char → Prop where
  | keys {before row : List Char} {terms : List String} (hbefore : IsBlanks before)
      (hrow : Spaced (terms.map String.toList) row) :
      Written (.keys terms) (before ++ keysMark ++ row)
  | derive {before padded : List Char} {formula : String} (hbefore : IsBlanks before)
      (hformula : Padded formula.toList padded) :
      Written (.derive formula) (before ++ deriveMark ++ padded)
  | evaluateAt {left right : List Char} {formula point : String}
      (hmark : Unmarked (trim (left ++ '@' :: right))) (hformula : Padded formula.toList left)
      (hpoint : Padded point.toList right) (hat : '@' ∉ point.toList) :
      Written (.evaluateAt formula point) (left ++ '@' :: right)
  | evaluate {line : List Char} {formula : String} (hmark : Unmarked (trim line))
      (hformula : Padded formula.toList line) (hat : '@' ∉ formula.toList) :
      Written (.evaluate formula) line

/-! ## What is not there -/

/-- There is nothing behind a mark exactly if the line does not start with it. -/
theorem behind?_eq_none_iff : behind? mark text = none ↔ ¬ mark <+: text := by
  rw [Option.eq_none_iff_forall_ne_some]
  simp only [ne_eq, behind?_eq_some_iff]
  constructor
  · rintro h ⟨rest, rfl⟩
    exact h rest rfl
  · rintro h rest rfl
    exact h (List.prefix_append mark rest)

/-- A line cannot be split exactly if the sign is missing in it. -/
theorem splitAtLast?_eq_none_iff : splitAtLast? c text = none ↔ c ∉ text := by
  have hall : text.reverse.dropWhile (· != c) = [] ↔ c ∉ text := by
    simp [List.forall_mem_ne']
  rw [← hall, splitAtLast?]
  split <;> simp_all

/-! ## The command of a trimmed line -/

/-- The mark for keys has no blank in it, so no trimming can cut it short. -/
theorem isWord_keysMark : IsWord keysMark := ⟨by decide, by simp [keysMark, isBlank]⟩

/-- The mark for derivatives has no blank in it, so no trimming can cut it short. -/
theorem isWord_deriveMark : IsWord deriveMark := ⟨by decide, by simp [deriveMark, isBlank]⟩

/-- Behind the mark for keys stand the terms, one word each. -/
theorem ofTrimmed_keys (row : List Char) :
    ofTrimmed (keysMark ++ row) = .keys ((words row).map String.ofList) := by
  have hbehind : behind? [':', 'r', 'p', 'n'] (keysMark ++ row) = some row :=
    behind?_eq_some_iff.mpr rfl
  rw [ofTrimmed, hbehind]

/-- Behind the mark for derivatives stands the formula, which may have blanks around
it. -/
theorem ofTrimmed_derive (padded : List Char) :
    ofTrimmed (deriveMark ++ padded) = .derive (trimmed padded) := by
  have hkeys : behind? [':', 'r', 'p', 'n'] (deriveMark ++ padded) = none := by
    simp [deriveMark, behind?]
  have hbehind : behind? [':', 'd'] (deriveMark ++ padded) = some padded :=
    behind?_eq_some_iff.mpr rfl
  rw [ofTrimmed, hkeys, hbehind]

/-- A line with neither mark is split at the last `@`, and both parts may have blanks
around them. -/
theorem ofTrimmed_evaluateAt (hmark : Unmarked line)
    (hsplit : splitAtLast? '@' line = some (before, behind)) :
    ofTrimmed line = .evaluateAt (trimmed before) (trimmed behind) := by
  have hkeys : behind? [':', 'r', 'p', 'n'] line = none := behind?_eq_none_iff.mpr hmark.keys
  have hderive : behind? [':', 'd'] line = none := behind?_eq_none_iff.mpr hmark.derive
  rw [ofTrimmed, hkeys, hderive, hsplit]

/-- A line with neither mark and no `@` is a formula as it stands. -/
theorem ofTrimmed_evaluate (hmark : Unmarked line) (hat : '@' ∉ line) :
    ofTrimmed line = .evaluate (String.ofList line) := by
  have hkeys : behind? [':', 'r', 'p', 'n'] line = none := behind?_eq_none_iff.mpr hmark.keys
  have hderive : behind? [':', 'd'] line = none := behind?_eq_none_iff.mpr hmark.derive
  rw [ofTrimmed, hkeys, hderive, splitAtLast?_eq_none_iff.mpr hat]

/-! ## Reading what is written down -/

/-- A formula is found again when the blanks around it are trimmed away. -/
theorem ofList_trim_eq {formula : String} (h : Padded formula.toList padded) :
    String.ofList (trim padded) = formula := by
  rw [trim_eq_iff.mpr h, String.ofList_toList]

/-- What is written down in a line is what the line is taken for. -/
theorem Written.ofTrimmed_trim (h : Written command line) : ofTrimmed (trim line) = command := by
  cases h with
  | keys hbefore hrow =>
    rw [List.append_assoc, trim_blanks_append hbefore, trim_word_append isWord_keysMark,
      ofTrimmed_keys, words_rdropWhile, hrow.words, List.map_map]
    simp
  | derive hbefore hformula =>
    rw [List.append_assoc, trim_blanks_append hbefore, trim_word_append isWord_deriveMark,
      ofTrimmed_derive, trimmed, trim_rdropWhile, ofList_trim_eq hformula]
  | @evaluateAt left right formula point hmark hformula hpoint hat =>
    have htrim := trim_append_cons (c := '@') (by decide) left right
    have hright : '@' ∉ right.rdropWhile isBlank := fun hmem =>
      hpoint.not_mem (by decide) hat ((List.rdropWhile_prefix _ _).subset hmem)
    rw [ofTrimmed_evaluateAt hmark (splitAtLast?_eq_some_iff.mpr ⟨htrim, hright⟩), trimmed, trimmed,
      trim_dropWhile, trim_rdropWhile, ofList_trim_eq hformula, ofList_trim_eq hpoint]
  | evaluate hmark hformula hat =>
    rw [← trim_eq_iff.mpr hformula] at hat
    rw [ofTrimmed_evaluate hmark hat, ofList_trim_eq hformula]

/-! ## What a line is taken for is written down in it -/

/-- A text is what it is trimmed to, with blanks around it. -/
theorem padded_ofList (h : trim padded = text) : Padded (String.ofList text).toList padded := by
  rw [String.toList_ofList]
  exact trim_eq_iff.mp h

/-- A line with the mark for keys is a way to write the command that it is taken for. -/
theorem written_of_keysMark (hmark : keysMark <+: trim line) :
    Written (ofTrimmed (trim line)) line := by
  obtain ⟨before, row, behind, hbefore, hbehind, htrim, hline⟩ := exists_of_prefix_trim hmark
  have hspaced := (spaced_words row).append_blanks hbehind
  rw [htrim, ofTrimmed_keys, hline]
  exact .keys hbefore (by simpa using hspaced)

/-- A line with the mark for derivatives is a way to write the command that it is taken
for. -/
theorem written_of_deriveMark (hmark : deriveMark <+: trim line) :
    Written (ofTrimmed (trim line)) line := by
  obtain ⟨before, padded, behind, hbefore, hbehind, htrim, hline⟩ := exists_of_prefix_trim hmark
  rw [htrim, ofTrimmed_derive, hline]
  exact .derive hbefore (padded_ofList (trim_append_blanks hbehind padded))

/-- A line with neither mark is a way to write the command that it is taken for, with a
value for the argument or without. -/
theorem written_of_unmarked (hmark : Unmarked (trim line)) :
    Written (ofTrimmed (trim line)) line := by
  cases hsplit : splitAtLast? '@' (trim line) with
  | none =>
    have hat : '@' ∉ trim line := splitAtLast?_eq_none_iff.mp hsplit
    rw [ofTrimmed_evaluate hmark hat]
    exact .evaluate hmark (padded_ofList rfl) (by simpa using hat)
  | some parts =>
    obtain ⟨formula, point⟩ := parts
    obtain ⟨htrim, hat⟩ := splitAtLast?_eq_some_iff.mp hsplit
    obtain ⟨-, before, behind, hbefore, hbehind, hline⟩ := trim_eq_iff.mp htrim
    have hparts : line = before ++ formula ++ '@' :: (point ++ behind) := by simpa using hline
    have hnot : '@' ∉ trim point := fun hmem => hat (mem_of_mem_trim hmem)
    rw [ofTrimmed_evaluateAt hmark hsplit]
    rw [hparts] at hmark ⊢
    exact .evaluateAt hmark (padded_ofList (trim_blanks_append hbefore formula))
      (padded_ofList (trim_append_blanks hbehind point)) (by simpa [trimmed] using hnot)

/-- What a line is taken for is written down in it. -/
theorem written_ofTrimmed_trim (line : List Char) : Written (ofTrimmed (trim line)) line := by
  by_cases hkeys : keysMark <+: trim line
  · exact written_of_keysMark hkeys
  by_cases hderive : deriveMark <+: trim line
  · exact written_of_deriveMark hderive
  exact written_of_unmarked ⟨hkeys, hderive⟩

/-- A line asks for a command exactly if the command is written down in it. -/
theorem parse_eq_iff {command : Command} {line : String} :
    parse line = command ↔ Written command line.toList := by
  constructor
  · rintro rfl
    exact written_ofTrimmed_trim line.toList
  · exact Written.ofTrimmed_trim

example : parse " :rpn 1 :d  @" = .keys ["1", ":d", "@"] := by decide

example : parse "x @ y@ 3" = .evaluateAt "x @ y" "3" := by decide

end FormulaCalculator.Command
