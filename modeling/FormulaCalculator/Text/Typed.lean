import FormulaCalculator.Text.Cluster

/-!
# Typed lines

A line arrives as it was typed, with the keys that end it and with those that
take something back. A backspace takes back what a reader sees as one character,
however many characters it is written by.
-/

set_option autoImplicit false

namespace FormulaCalculator.Text

/-- The character that takes back the cluster before it. -/
def backspace : Char := '\x08'

/-- The lines of a text. Each has the line feed that ends it; only the last line
can be without one. -/
def cutLines (text : List Char) : List (List Char) :=
  text.foldr consToLines []
where
  /-- Puts a character in front of the first line, or on a line of its own. -/
  consToLines (c : Char) (lines : List (List Char)) : List (List Char) :=
    match lines with
    | [] => [[c]]
    | line :: lines => if c == '\n' then [c] :: line :: lines else (c :: line) :: lines

/-- Cutting a text into lines loses no character. -/
theorem flatten_cutLines (text : List Char) : (cutLines text).flatten = text := by
  induction text with
  | nil => rfl
  | cons c text ih =>
    rw [cutLines, List.foldr_cons, ← cutLines]
    cases h : cutLines text with
    | nil => simp_all [cutLines.consToLines]
    | cons line lines =>
      rw [h] at ih
      rw [cutLines.consToLines]
      split <;> simp [← ih]

/-- A line without its end, a line feed with or without a carriage return. -/
def withoutEnd (line : List Char) : List Char :=
  match line.reverse with
  | '\n' :: '\r' :: text => text.reverse
  | '\n' :: text => text.reverse
  | _ => line

/-- Types a cluster after others, the last one of which stands first. A backspace
takes that one back, if there is one. -/
def typeCluster (typed : List (List Char)) (cluster : List Char) : List (List Char) :=
  if cluster = [backspace] then typed.tail else cluster :: typed

/-- What is left of a text when its backspaces have done their work. -/
def applyBackspaces (text : List Char) : List Char :=
  ((clusters text).foldl typeCluster []).reverse.flatten

/-- Clusters without a backspace are all kept. -/
theorem foldl_typeCluster {clusters typed : List (List Char)} (h : [backspace] ∉ clusters) :
    clusters.foldl typeCluster typed = clusters.reverse ++ typed := by
  induction clusters generalizing typed with
  | nil => rfl
  | cons cluster clusters ih =>
    simp only [List.mem_cons, not_or] at h
    rw [List.foldl_cons, typeCluster, if_neg (Ne.symm h.1), ih h.2]
    simp

/-- A text without backspaces stays as it is. -/
theorem applyBackspaces_of_not_mem {text : List Char} (h : backspace ∉ text) :
    applyBackspaces text = text := by
  have hclusters : [backspace] ∉ clusters text := fun hmem => h <| by
    rw [← flatten_clusters text]
    exact List.mem_flatten.2 ⟨_, hmem, List.mem_singleton_self _⟩
  rw [applyBackspaces, foldl_typeCluster hclusters]
  simp [flatten_clusters]

/-- What a line says that was typed. -/
def typed (line : String) : String :=
  String.ofList (applyBackspaces (withoutEnd line.toList))

/-- What the lines of an input say. -/
def typedLines (input : String) : List String :=
  (cutLines input.toList).map fun line => typed (String.ofList line)

end FormulaCalculator.Text
