import FormulaCalculator.Text.Cluster.Role

/-!
# Clusters

What a reader takes for one character can be written by several: a letter and
its accents, the letters of a syllable, two letters that stand for a flag,
pictures joined to one. A cluster holds the characters that belong together in
this way, and every text is cut into clusters. The rules are those of Unicode 17
for extended clusters. A rule looks at the characters before a place and at the
one behind it, and says whether they belong together.
-/

set_option autoImplicit false

namespace FormulaCalculator.Text

/-- Whether two characters belong to one syllable of Hangul. -/
def joinsSyllable : Role → Role → Bool
  | .initial, .initial | .initial, .medial => true
  | .initial, .openSyllable | .initial, .closedSyllable => true
  | .medial, .medial | .medial, .final => true
  | .openSyllable, .medial | .openSyllable, .final => true
  | .closedSyllable, .final | .final, .final => true
  | _, _ => false

/-- Whether a consonant goes on with a conjunct. The characters before it, the
last one first, are marks with a linker among them, after a consonant. -/
def joinsConjunct (before : List Role) (next : Role) : Bool :=
  next == .consonant &&
    (before.takeWhile Role.isConjunctMark).contains .linker &&
    (before.dropWhile Role.isConjunctMark).head? == some .consonant

/-- Whether a picture goes on with a picture. The characters before it, the last
one first, are a joiner after a picture and its marks. -/
def joinsPicture (before : List Role) (next : Role) : Bool :=
  match before with
  | .joiner :: earlier =>
    next == .pictograph && (earlier.dropWhile Role.isMark).head? == some .pictograph
  | _ => false

/-- Whether a letter makes a flag with the one before it: the letters of flags
go in pairs, so an odd number of them stands before it. -/
def joinsFlag (before : List Role) (next : Role) : Bool :=
  next == .flagLetter && (before.takeWhile (· == .flagLetter)).length % 2 == 1

/-- Whether a character goes on with the cluster of the one before it. `earlier`
holds the characters of the cluster before `last`, the last one first. -/
def joins (last : Role) (earlier : List Role) (next : Role) : Bool :=
  if last.isControl || next.isControl then
    last == .carriageReturn && next == .lineFeed
  else
    next.isMark || next == .joiner || next == .spacing || last == .leading ||
      joinsSyllable last next || joinsConjunct (last :: earlier) next ||
      joinsPicture (last :: earlier) next || joinsFlag (last :: earlier) next

/-- The clusters of a text, the first of which has begun: `cluster` holds its
characters so far, the last one first, and `last` and `earlier` hold their roles
in the same order. -/
def clustersFrom (cluster : List Char) (last : Role) (earlier : List Role) :
    List Char → List (List Char)
  | [] => [cluster.reverse]
  | c :: text =>
    if joins last earlier (.of c) then
      clustersFrom (c :: cluster) (.of c) (last :: earlier) text
    else
      cluster.reverse :: clustersFrom [c] (.of c) [] text

/-- The clusters of a text. -/
def clusters : List Char → List (List Char)
  | [] => []
  | c :: text => clustersFrom [c] (.of c) [] text

/-- Cutting the rest of a text into clusters loses no character. -/
theorem flatten_clustersFrom (cluster : List Char) (last : Role) (earlier : List Role)
    (text : List Char) :
    (clustersFrom cluster last earlier text).flatten = cluster.reverse ++ text := by
  induction text generalizing cluster last earlier with
  | nil => simp [clustersFrom]
  | cons c text ih =>
    rw [clustersFrom]
    split <;> simp [ih]

/-- Cutting a text into clusters loses no character. -/
theorem flatten_clusters (text : List Char) : (clusters text).flatten = text := by
  cases text with
  | nil => rfl
  | cons c text => simp [clusters, flatten_clustersFrom]

end FormulaCalculator.Text
