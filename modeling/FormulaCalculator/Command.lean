import FormulaCalculator.Text.Blank

/-!
# Command lines

What a line asks the calculator for: the value of keys after `:rpn`, the
derivative of a formula after `:d`, the value of a formula at a point behind
the last `@`, or the value of a formula. Blanks around the line and around its
parts do not count.
-/

set_option autoImplicit false

namespace FormulaCalculator

/-- What a line asks for. -/
inductive Command where
  | keys (terms : List String)
  | derive (formula : String)
  | evaluateAt (formula point : String)
  | evaluate (formula : String)
deriving DecidableEq, Repr

namespace Command

/-- The rest of a text behind the given characters, if it starts with them. -/
def behind? : List Char → List Char → Option (List Char)
  | [], text => some text
  | c :: mark, d :: text => if c = d then behind? mark text else none
  | _ :: _, [] => none

/-- What is behind some characters is what they are put in front of. -/
theorem behind?_eq_some_iff {mark text rest : List Char} :
    behind? mark text = some rest ↔ text = mark ++ rest := by
  induction mark generalizing text with
  | nil => simp [behind?, eq_comm]
  | cons c mark ih =>
    cases text with
    | nil => simp [behind?]
    | cons d text =>
      by_cases h : c = d
      · subst h
        simp [behind?, ih]
      · simp [behind?, h, Ne.symm h]

/-- The parts of a text before and behind the last time a character is in it. -/
def splitAtLast? (c : Char) (text : List Char) : Option (List Char × List Char) :=
  match text.reverse.dropWhile (· != c) with
  | [] => none
  | _ :: before => some (before.reverse, (text.reverse.takeWhile (· != c)).reverse)

/-- A text falls into two parts at the last time a character is in it: the
character does not come again in the second part. -/
theorem splitAtLast?_eq_some_iff {c : Char} {text before behind : List Char} :
    splitAtLast? c text = some (before, behind) ↔
      text = before ++ c :: behind ∧ c ∉ behind := by
  unfold splitAtLast?
  constructor
  · intro h
    split at h
    · cases h
    · next d rest hd =>
      cases h
      have hc : d = c := by
        have := List.head?_dropWhile_not (· != c) text.reverse
        rw [hd] at this
        simpa using this
      -- The text is searched from its end, so the parts come out reversed.
      have htext : text.reverse = text.reverse.takeWhile (· != c) ++ c :: rest := by
        conv => lhs; rw [← List.takeWhile_append_dropWhile (p := (· != c)) (l := text.reverse)]
        rw [hd, hc]
      refine ⟨?_, ?_⟩
      · have := congrArg List.reverse htext
        simpa using this
      · intro hmem
        have := List.all_takeWhile (p := (· != c)) (l := text.reverse)
        rw [List.all_eq_true] at this
        simpa using this c (by simpa using hmem)
  · rintro ⟨rfl, hnot⟩
    have hrun : ∀ a ∈ behind.reverse, (a != c) = true := by
      intro a ha
      have : a ≠ c := fun h => hnot (by simpa [h] using ha)
      simpa using this
    have htake : (behind.reverse ++ c :: before.reverse).takeWhile (· != c) = behind.reverse := by
      rw [List.takeWhile_append_of_pos hrun]
      simp
    have hdrop :
        (behind.reverse ++ c :: before.reverse).dropWhile (· != c) = c :: before.reverse := by
      rw [List.dropWhile_append_of_pos hrun]
      simp
    simp [htake, hdrop]

/-- A text without blanks at its ends, as a string. -/
def trimmed (text : List Char) : String := String.ofList (Text.trim text)

/-- The command of a line without blanks at its ends. -/
def ofTrimmed (line : List Char) : Command :=
  match behind? [':', 'r', 'p', 'n'] line with
  | some terms => .keys ((Text.words terms).map String.ofList)
  | none =>
    match behind? [':', 'd'] line with
    | some formula => .derive (trimmed formula)
    | none =>
      match splitAtLast? '@' line with
      | some (formula, point) => .evaluateAt (trimmed formula) (trimmed point)
      | none => .evaluate (String.ofList line)

/-- The command of a line. -/
def parse (line : String) : Command := ofTrimmed (Text.trim line.toList)

end Command

end FormulaCalculator
