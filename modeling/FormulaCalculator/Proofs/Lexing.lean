import FormulaCalculator.Proofs.ScanJudgment
import FormulaCalculator.Token.Lexer

/-!
# The tokens of a text as a function of its characters

Cutting a text into tokens depends on nothing but the characters ahead and the
token before them. Here each scan of a formula is pinned to a function that
splits characters into a lexeme and a rest, and the whole lexer to a recursion
that cuts off one token after the other.
-/

set_option autoImplicit false

namespace FormulaCalculator

open FormulaCalculator.Text

/-- A run of characters of a class ends at the first one that is not in it. -/
theorem takeWhile_append_stop {inClass : Char → Bool} {run rest : List Char}
    (hrun : ∀ c ∈ run, inClass c = true) (hrest : ∀ c ∈ rest.head?, inClass c = false) :
    (run ++ rest).takeWhile inClass = run ∧ (run ++ rest).dropWhile inClass = rest := by
  induction run with
  | nil =>
    cases rest with
    | nil => exact ⟨rfl, rfl⟩
    | cons first rest => simp [hrest first rfl]
  | cons first run ih =>
    obtain ⟨hfirst, hrun⟩ := List.forall_mem_cons.mp hrun
    obtain ⟨htake, hdrop⟩ := ih hrun
    rw [List.cons_append, List.takeWhile_cons_of_pos hfirst, List.dropWhile_cons_of_pos hfirst,
      htake]
    exact ⟨rfl, hdrop⟩

namespace Lexeme

/-- A sign in front of a text, if there is one, and the rest. -/
def splitSign : List Char → List Char × List Char
  | [] => ([], [])
  | first :: rest => if ['+', '-'].contains first then ([first], rest) else ([], first :: rest)

/-- The exponent in front of a text, if there is one, and the rest. -/
def splitExponent : List Char → List Char × List Char
  | [] => ([], [])
  | mark :: text =>
    let (sign, rest) := splitSign text
    if ['e', 'E'].contains mark && !(rest.takeWhile Char.isDigit).isEmpty then
      (mark :: sign ++ rest.takeWhile Char.isDigit, rest.dropWhile Char.isDigit)
    else ([], mark :: text)

/-- The fraction and the exponent in front of a text, both optional, and the
rest. -/
def splitFraction : List Char → List Char × List Char
  | [] => ([], [])
  | point :: text =>
    if point == '.' then
      if (text.takeWhile Char.isDigit).isEmpty then ([], point :: text)
      else
        let (exponent, rest) := splitExponent (text.dropWhile Char.isDigit)
        (point :: text.takeWhile Char.isDigit ++ exponent, rest)
    else splitExponent (point :: text)

/-- The number in front of a text that starts with a digit, and the rest. -/
def splitNumber (text : List Char) : List Char × List Char :=
  let (fraction, rest) := splitFraction (text.dropWhile Char.isDigit)
  (text.takeWhile Char.isDigit ++ fraction, rest)

/-- Splitting off a sign loses no character. -/
theorem splitSign_append (text : List Char) : (splitSign text).1 ++ (splitSign text).2 = text := by
  unfold splitSign
  split
  · rfl
  · split <;> rfl

/-- Splitting off an exponent loses no character. -/
theorem splitExponent_append (text : List Char) :
    (splitExponent text).1 ++ (splitExponent text).2 = text := by
  unfold splitExponent
  split
  · rfl
  · next mark text =>
    dsimp only
    split
    · rw [List.append_assoc, List.takeWhile_append_dropWhile, List.cons_append, splitSign_append]
    · rfl

/-- Splitting off a fraction and its exponent loses no character. -/
theorem splitFraction_append (text : List Char) :
    (splitFraction text).1 ++ (splitFraction text).2 = text := by
  unfold splitFraction
  split
  · rfl
  · next point text =>
    split
    · split
      · rfl
      · dsimp only
        rw [List.append_assoc, splitExponent_append, List.cons_append,
          List.takeWhile_append_dropWhile]
    · exact splitExponent_append _

/-- Splitting off a number loses no character. -/
theorem splitNumber_append (text : List Char) :
    (splitNumber text).1 ++ (splitNumber text).2 = text := by
  unfold splitNumber
  dsimp only
  rw [List.append_assoc, splitFraction_append, List.takeWhile_append_dropWhile]

end Lexeme

namespace Scan

open Lexeme

/-- Blanks ahead are passed, and the lexeme starts behind them. -/
theorem gives_ignoreBlanks (v : View) :
    ignoreBlanks.Gives v (!(v.ahead.takeWhile isBlankAscii).isEmpty)
      ⟨v.checkpoint + (v.ahead.takeWhile isBlankAscii).length, [],
        v.ahead.dropWhile isBlankAscii⟩ := by
  refine (gives_skipWhile isBlankAscii v).bind ((gives_ignore _).bind ?_)
  rw [View.pass_checkpoint]
  exact gives_pure _ _

/-- The sign of an exponent is passed if there is one. -/
theorem gives_acceptSign (v : View) : ∃ answer, (acceptAny ['+', '-']).Gives v answer
    (v.pass (splitSign v.ahead).1 (splitSign v.ahead).2) := by
  cases hahead : v.ahead with
  | nil =>
    refine ⟨none, ?_⟩
    rw [splitSign, View.pass_nil hahead]
    exact gives_acceptIf_none (by simp [hahead])
  | cons first rest =>
    by_cases hsign : ['+', '-'].contains first = true
    · refine ⟨some first, ?_⟩
      rw [splitSign, if_pos hsign]
      exact gives_acceptIf hahead hsign
    · refine ⟨none, ?_⟩
      rw [splitSign, if_neg hsign, View.pass_nil hahead]
      exact gives_acceptIf_none (by simpa [hahead] using hsign)

/-- An exponent is passed, and a mark without digits is not. -/
theorem gives_skipExponent (v : View) :
    skipExponent.Gives v () (v.pass (splitExponent v.ahead).1 (splitExponent v.ahead).2) := by
  refine (gives_checkpoint v).bind ?_
  cases hahead : v.ahead with
  | nil =>
    have haccept : (acceptAny ['e', 'E']).Gives v none v :=
      gives_acceptIf_none (by simp [hahead])
    simp only [splitExponent, View.pass_nil hahead]
    exact haccept.bind (gives_pure _ _)
  | cons mark text =>
    by_cases hmark : ['e', 'E'].contains mark = true
    · have haccept : (acceptAny ['e', 'E']).Gives v (some mark) (v.pass [mark] text) :=
        gives_acceptIf hahead hmark
      obtain ⟨answer, hsign⟩ := gives_acceptSign (v.pass [mark] text)
      refine haccept.bind (hsign.bind ((gives_skipWhile Char.isDigit _).bind ?_))
      simp only [View.pass_ahead, View.pass_pass, splitExponent, hmark, Bool.true_and]
      cases hdigits : ((splitSign text).2.takeWhile Char.isDigit).isEmpty with
      | false => exact gives_pure _ _
      | true =>
        -- The mark turns out to be none, and all that was passed behind it is given back.
        have hsplit : [mark] ++ (splitSign text).1 ++ (splitSign text).2.takeWhile Char.isDigit ++
            (splitSign text).2.dropWhile Char.isDigit = v.ahead := by
          rw [List.append_assoc, List.takeWhile_append_dropWhile, List.append_assoc,
            splitSign_append, hahead]
          rfl
        simp only [Bool.not_true, Bool.false_eq_true, if_false, View.pass_nil hahead]
        exact gives_restore hsplit
    · have haccept : (acceptAny ['e', 'E']).Gives v none v :=
        gives_acceptIf_none (by simpa [hahead] using hmark)
      simp only [splitExponent, Bool.eq_false_iff.mpr hmark, Bool.false_and, Bool.false_eq_true,
        if_false, View.pass_nil hahead]
      exact haccept.bind (gives_pure _ _)

/-- A fraction and an exponent are passed, and a point without digits is not. -/
theorem gives_skipFraction (v : View) :
    skipFraction.Gives v () (v.pass (splitFraction v.ahead).1 (splitFraction v.ahead).2) := by
  refine (gives_checkpoint v).bind ?_
  cases hahead : v.ahead with
  | nil =>
    have haccept : (accept '.').Gives v none v := gives_acceptIf_none (by simp [hahead])
    have hexponent := gives_skipExponent v
    rw [hahead] at hexponent
    exact haccept.bind hexponent
  | cons point text =>
    by_cases hpoint : (point == '.') = true
    · have haccept : (accept '.').Gives v (some point) (v.pass [point] text) :=
        gives_acceptIf hahead hpoint
      refine haccept.bind ((gives_skipWhile Char.isDigit _).bind ?_)
      simp only [View.pass_ahead, View.pass_pass, splitFraction, hpoint, if_true]
      by_cases hdigits : (text.takeWhile Char.isDigit).isEmpty = true
      · have hsplit : [point] ++ text.takeWhile Char.isDigit ++ text.dropWhile Char.isDigit =
            v.ahead := by
          rw [List.append_assoc, List.takeWhile_append_dropWhile, hahead]
          rfl
        simp only [hdigits, Bool.not_true, Bool.false_eq_true, if_false, if_true,
          View.pass_nil hahead]
        exact gives_restore hsplit
      · have hexponent := gives_skipExponent
          (v.pass ([point] ++ text.takeWhile Char.isDigit) (text.dropWhile Char.isDigit))
        rw [View.pass_pass, View.pass_ahead] at hexponent
        simp only [hdigits, Bool.not_false, if_true, Bool.false_eq_true, if_false]
        exact hexponent
    · have haccept : (accept '.').Gives v none v :=
        gives_acceptIf_none (by simpa [hahead] using hpoint)
      have hexponent := gives_skipExponent v
      rw [hahead] at hexponent
      simp only [splitFraction, Bool.eq_false_iff.mpr hpoint, Bool.false_eq_true, if_false]
      exact haccept.bind hexponent

/-- Where a digit is ahead, the number is what is split off there. -/
theorem gives_scanNumber {v : View} {first : Char} {rest : List Char}
    (hahead : v.ahead = first :: rest) (hfirst : first.isDigit = true) :
    scanNumber.Gives v (some (String.ofList (v.lexeme ++ (splitNumber v.ahead).1)))
      ⟨v.checkpoint + (splitNumber v.ahead).1.length, [], (splitNumber v.ahead).2⟩ := by
  have hdigits : (v.ahead.takeWhile Char.isDigit).isEmpty = false := by
    rw [hahead, List.takeWhile_cons_of_pos hfirst]
    rfl
  refine (gives_skipWhile Char.isDigit v).bind ?_
  simp only [hdigits, Bool.not_false, if_true]
  refine (gives_skipFraction _).bind ((gives_extractString _).bind ?_)
  simp only [View.pass_pass, View.pass_ahead, View.pass_checkpoint]
  exact gives_pure _ _

/-- Where no digit is ahead, there is no number and the cursor stays. -/
theorem gives_scanNumber_none {v : View}
    (hnot : ∀ first ∈ v.ahead.head?, first.isDigit = false) : scanNumber.Gives v none v := by
  have hempty : v.ahead.takeWhile Char.isDigit = [] := by
    cases hahead : v.ahead with
    | nil => rfl
    | cons first rest =>
      rw [hahead] at hnot
      exact List.takeWhile_cons_of_neg (by simpa using hnot first rfl)
  have hdrop : v.ahead.dropWhile Char.isDigit = v.ahead := by
    have hsplit := List.takeWhile_append_dropWhile (p := Char.isDigit) (l := v.ahead)
    rwa [hempty] at hsplit
  refine (gives_skipWhile Char.isDigit v).bind ?_
  rw [hempty, hdrop, View.pass_nil rfl]
  exact gives_pure _ _

end Scan

/-- The first token of a text that starts with no blank, with the characters it
is made of and the rest of the text. -/
structure Cut where
  token : Token
  lexeme : List Char
  rest : List Char

namespace Lexeme

/-- The token of a text that starts with a digit. A number that stopped at a
point is part of a bad literal. -/
def numberCut (text : List Char) : Cut :=
  let (number, rest) := splitNumber text
  if rest.head? = some '.' then
    ⟨.stray (String.ofList (number ++ rest.takeWhile isNumeric)),
      number ++ rest.takeWhile isNumeric, rest.dropWhile isNumeric⟩
  else ⟨.ofNumber (String.ofList number), number, rest⟩

/-- Cuts off the first token of a text that starts with no blank. -/
def firstCut? (previous : Option Token) : List Char → Option Cut
  | [] => none
  | first :: rest =>
    if Scan.operatorSigns.contains first then
      some ⟨.ofSign (String.ofList [first]) previous, [first], rest⟩
    else if startsName first then
      some ⟨.ofName (String.ofList (first :: rest.takeWhile continuesName))
          (rest.dropWhile continuesName).head?,
        first :: rest.takeWhile continuesName, rest.dropWhile continuesName⟩
    else if first.isDigit then some (numberCut (first :: rest))
    else some ⟨.stray (String.ofList [first]), [first], rest⟩

/-- The kinds of first tokens. -/
inductive Cuts (previous : Option Token) : List Char → Cut → Prop where
  | sign {first : Char} {rest : List Char} : Scan.operatorSigns.contains first = true →
      Cuts previous (first :: rest) ⟨.ofSign (String.ofList [first]) previous, [first], rest⟩
  | name {first : Char} {rest : List Char} : Scan.operatorSigns.contains first = false →
      startsName first = true →
      Cuts previous (first :: rest)
        ⟨.ofName (String.ofList (first :: rest.takeWhile continuesName))
          (rest.dropWhile continuesName).head?,
          first :: rest.takeWhile continuesName, rest.dropWhile continuesName⟩
  | number {first : Char} {rest : List Char} : Scan.operatorSigns.contains first = false →
      startsName first = false → first.isDigit = true →
      Cuts previous (first :: rest) (numberCut (first :: rest))
  | stray {first : Char} {rest : List Char} : Scan.operatorSigns.contains first = false →
      startsName first = false → first.isDigit = false →
      Cuts previous (first :: rest) ⟨.stray (String.ofList [first]), [first], rest⟩

/-- What is cut off first is a cut of one of the kinds: number, name, sign or stray
character. -/
theorem cuts_of_firstCut? {previous : Option Token} {text : List Char} {cut : Cut}
    (h : firstCut? previous text = some cut) : Cuts previous text cut := by
  cases text with
  | nil => cases h
  | cons first rest =>
    rw [firstCut?] at h
    cases hsign : Scan.operatorSigns.contains first with
    | true =>
      rw [if_pos hsign] at h
      cases h
      exact .sign hsign
    | false =>
      rw [if_neg (Bool.eq_false_iff.mp hsign)] at h
      cases hname : startsName first with
      | true =>
        rw [if_pos hname] at h
        cases h
        exact .name hsign hname
      | false =>
        rw [if_neg (Bool.eq_false_iff.mp hname)] at h
        cases hdigit : first.isDigit with
        | true =>
          rw [if_pos hdigit] at h
          cases h
          exact .number hsign hname hdigit
        | false =>
          rw [if_neg (Bool.eq_false_iff.mp hdigit)] at h
          cases h
          exact .stray hsign hname hdigit

/-- Cutting off a number, or a bad literal, loses no character. -/
theorem numberCut_append (text : List Char) :
    (numberCut text).lexeme ++ (numberCut text).rest = text := by
  unfold numberCut
  dsimp only
  split
  · rw [List.append_assoc, List.takeWhile_append_dropWhile, splitNumber_append]
  · exact splitNumber_append text

/-- A number that starts with a digit has that digit at least. -/
theorem numberCut_lexeme_ne_nil {first : Char} {rest : List Char} (h : first.isDigit = true) :
    (numberCut (first :: rest)).lexeme ≠ [] := by
  have hne : (splitNumber (first :: rest)).1 ≠ [] := by
    simp [splitNumber, List.takeWhile_cons_of_pos h]
  unfold numberCut
  dsimp only
  split
  · exact List.append_ne_nil_of_left_ne_nil hne _
  · exact hne

/-- A token is made of the characters in front of the rest, at least one. -/
theorem append_of_firstCut? {previous : Option Token} {text : List Char} {cut : Cut}
    (h : firstCut? previous text = some cut) :
    cut.lexeme ++ cut.rest = text ∧ cut.lexeme ≠ [] := by
  cases cuts_of_firstCut? h with
  | sign _ | stray _ _ _ => exact ⟨rfl, List.cons_ne_nil _ _⟩
  | name _ _ =>
    refine ⟨?_, List.cons_ne_nil _ _⟩
    rw [List.cons_append, List.takeWhile_append_dropWhile]
  | number _ _ hdigit => exact ⟨numberCut_append _, numberCut_lexeme_ne_nil hdigit⟩

/-- There is a first token in every text that is not empty: a character that fits nowhere
is one by itself. -/
theorem exists_firstCut (previous : Option Token) (first : Char) (rest : List Char) :
    ∃ cut, firstCut? previous (first :: rest) = some cut := by
  rw [firstCut?]
  split
  · exact ⟨_, rfl⟩
  · split
    · exact ⟨_, rfl⟩
    · split <;> exact ⟨_, rfl⟩

end Lexeme

namespace Scan

open Lexeme

/-- Where a sign is ahead, it is the lexeme. -/
theorem gives_scanOperator {v : View} {first : Char} {rest : List Char}
    (hahead : v.ahead = first :: rest) (hfirst : operatorSigns.contains first = true) :
    scanOperator.Gives v (some (String.ofList (v.lexeme ++ [first])))
      ⟨v.checkpoint + 1, [], rest⟩ := by
  have haccept : (acceptAny operatorSigns).Gives v (some first) (v.pass [first] rest) :=
    gives_acceptIf hahead hfirst
  refine haccept.bind ((gives_extractString _).bind ?_)
  rw [View.pass_checkpoint]
  exact gives_pure _ _

/-- Where no sign is ahead, there is none to scan and the cursor stays. -/
theorem gives_scanOperator_none {v : View}
    (hnot : ∀ first ∈ v.ahead.head?, operatorSigns.contains first = false) :
    scanOperator.Gives v none v :=
  (gives_acceptIf_none hnot).bind (gives_pure _ _)

/-- Where a name starts ahead, it goes on as long as its characters do. -/
theorem gives_scanName {v : View} {first : Char} {rest : List Char}
    (hahead : v.ahead = first :: rest) (hfirst : startsName first = true) :
    scanName.Gives v (some (String.ofList (v.lexeme ++ first :: rest.takeWhile continuesName)))
      ⟨v.checkpoint + (first :: rest.takeWhile continuesName).length, [],
        rest.dropWhile continuesName⟩ := by
  refine (gives_acceptIf hahead hfirst).bind ((gives_skipWhile continuesName _).bind ?_)
  simp only [View.pass_pass, View.pass_ahead]
  refine (gives_extractString _).bind ?_
  rw [View.pass_checkpoint]
  exact gives_pure _ _

/-- Where no name starts ahead, there is none to scan and the cursor stays. -/
theorem gives_scanName_none {v : View}
    (hnot : ∀ first ∈ v.ahead.head?, startsName first = false) : scanName.Gives v none v :=
  (gives_acceptIf_none hnot).bind (gives_pure _ _)

/-- Where a point is ahead of a number, all digits and points behind the number belong to
a bad literal. -/
theorem gives_scanNumberTail {v : View} (head : String) (hpoint : v.ahead.head? = some '.') :
    (scanNumberTail head).Gives v
      (some (head ++ String.ofList (v.lexeme ++ v.ahead.takeWhile isNumeric)))
      ⟨v.checkpoint + (v.ahead.takeWhile isNumeric).length, [], v.ahead.dropWhile isNumeric⟩ := by
  refine (gives_peek _).bind ?_
  simp only [hpoint, beq_self_eq_true, if_true]
  refine (gives_skipWhile isNumeric _).bind ((gives_extractString _).bind ?_)
  rw [View.pass_checkpoint]
  exact gives_pure _ _

/-- Where no point is ahead of a number, the literal is no bad one. -/
theorem gives_scanNumberTail_none {v : View} (head : String) (hnot : v.ahead.head? ≠ some '.') :
    (scanNumberTail head).Gives v none v := by
  refine (gives_peek _).bind ?_
  simp only [beq_iff_eq, hnot, if_false]
  exact gives_pure _ _

/-- The scan of a token takes what is cut off first. -/
theorem gives_token {previous : Option Token} {text : List Char} {cut : Cut} (start : Nat)
    (h : firstCut? previous text = some cut) :
    (token previous).Gives ⟨start, [], text⟩ (some cut.token)
      ⟨start + cut.lexeme.length, [], cut.rest⟩ := by
  cases cuts_of_firstCut? h with
  | @sign first rest hsign =>
    exact (@gives_scanOperator ⟨start, [], first :: rest⟩ _ _ rfl hsign).bind (gives_pure _ _)
  | @name first rest hsign hname =>
    refine (gives_scanOperator_none (by simpa using hsign)).bind ?_
    exact (@gives_scanName ⟨start, [], first :: rest⟩ _ _ rfl hname).bind
      ((gives_peek _).bind (gives_pure _ _))
  | @number first rest hsign hname hdigit =>
    refine (gives_scanOperator_none (by simpa using hsign)).bind ?_
    refine (gives_scanName_none (by simpa using hname)).bind ?_
    refine (@gives_scanNumber ⟨start, [], first :: rest⟩ _ _ rfl hdigit).bind ?_
    unfold numberCut
    dsimp only
    by_cases hpoint : (splitNumber (first :: rest)).2.head? = some '.'
    · refine (gives_scanNumberTail _ hpoint).bind ?_
      simp only [if_pos hpoint, ← String.ofList_append, List.length_append, ← Nat.add_assoc]
      exact gives_pure _ _
    · refine (gives_scanNumberTail_none _ hpoint).bind ?_
      simp only [if_neg hpoint]
      exact gives_pure _ _
  | @stray first rest hsign hname hdigit =>
    refine (gives_scanOperator_none (by simpa using hsign)).bind ?_
    refine (gives_scanName_none (by simpa using hname)).bind ?_
    refine (gives_scanNumber_none (by simpa using hdigit)).bind ?_
    have hnext : next.Gives ⟨start, [], first :: rest⟩ (some first)
        (View.pass ⟨start, [], first :: rest⟩ [first] rest) := gives_acceptIf rfl rfl
    exact hnext.bind ((gives_extractString _).bind (gives_pure _ _))

/-- At the end of a text there is no token. -/
theorem gives_token_none (previous : Option Token) (start : Nat) :
    (token previous).Gives ⟨start, [], []⟩ none ⟨start, [], []⟩ := by
  refine (gives_scanOperator_none (by simp)).bind ?_
  refine (gives_scanName_none (by simp)).bind ?_
  refine (gives_scanNumber_none (by simp)).bind ?_
  exact Gives.bind (a := none) (gives_acceptIf_none (by simp)) (gives_pure _ _)

end Scan

namespace Lexeme

/-- The tokens of a text from a position on, after the token before it. -/
def locatedFrom (position : Nat) (previous : Option Token) (text : List Char) : List Located :=
  match _h : firstCut? previous (text.dropWhile isBlankAscii) with
  | none => []
  | some cut =>
    let start := position + (text.takeWhile isBlankAscii).length
    ⟨start, cut.token⟩ :: locatedFrom (start + cut.lexeme.length) (some cut.token) cut.rest
termination_by text.length
decreasing_by
  obtain ⟨hsplit, hne⟩ := append_of_firstCut? _h
  have hpos := List.length_pos_iff.mpr hne
  have hle := (List.dropWhile_suffix isBlankAscii (l := text)).length_le
  rw [← hsplit, List.length_append] at hle
  omega

/-- The tokens of a text are the one that is cut off behind the blanks, with its position,
and those of the rest. -/
theorem locatedFrom_of_cut {position : Nat} {previous : Option Token} {text : List Char} {cut : Cut}
    (h : firstCut? previous (text.dropWhile isBlankAscii) = some cut) :
    locatedFrom position previous text =
      ⟨position + (text.takeWhile isBlankAscii).length, cut.token⟩ ::
        locatedFrom (position + (text.takeWhile isBlankAscii).length + cut.lexeme.length)
          (some cut.token) cut.rest := by
  rw [locatedFrom]
  split
  · next hnone =>
    rw [h] at hnone
    cases hnone
  · next cut' hcut =>
    rw [h] at hcut
    cases hcut
    rfl

/-- Where nothing can be cut off, there are no tokens. -/
theorem locatedFrom_of_none {position : Nat} {previous : Option Token} {text : List Char}
    (h : firstCut? previous (text.dropWhile isBlankAscii) = none) :
    locatedFrom position previous text = [] := by
  rw [locatedFrom]
  split
  · rfl
  · next cut hcut =>
    rw [h] at hcut
    cases hcut

/-- A blank text has no tokens. -/
theorem locatedFrom_of_blank {position : Nat} {previous : Option Token} {text : List Char}
    (h : text.dropWhile isBlankAscii = []) : locatedFrom position previous text = [] := by
  apply locatedFrom_of_none
  rw [h]
  rfl

/-- The tokens of a text, after the token before it. -/
def tokensFrom (previous : Option Token) (text : List Char) : List Token :=
  (locatedFrom 0 previous text).map Located.token

/-- Where a text starts makes no difference to its tokens. -/
theorem map_token_locatedFrom (position : Nat) (previous : Option Token) (text : List Char) :
    (locatedFrom position previous text).map Located.token = tokensFrom previous text := by
  have hany (start : Nat) : (locatedFrom position previous text).map Located.token =
      (locatedFrom start previous text).map Located.token := by
    induction position, previous, text using locatedFrom.induct generalizing start with
    | case1 position previous text hnone =>
      rw [locatedFrom_of_none hnone, locatedFrom_of_none hnone]
    | case2 position previous text cut hcut _ ih =>
      rw [locatedFrom_of_cut hcut, locatedFrom_of_cut hcut, List.map_cons, List.map_cons, ih]
  exact hany 0

/-- The tokens of a text without their positions, one cut at a time. -/
theorem tokensFrom_of_cut {previous : Option Token} {text : List Char} {cut : Cut}
    (h : firstCut? previous (text.dropWhile isBlankAscii) = some cut) :
    tokensFrom previous text = cut.token :: tokensFrom (some cut.token) cut.rest := by
  rw [tokensFrom, locatedFrom_of_cut h, List.map_cons, map_token_locatedFrom]

/-- A blank text has no tokens, whatever stood before it. -/
theorem tokensFrom_of_blank {previous : Option Token} {text : List Char}
    (h : text.dropWhile isBlankAscii = []) : tokensFrom previous text = [] := by
  rw [tokensFrom, locatedFrom_of_blank h, List.map_nil]

/-- What holds of blank texts, and of a text if it holds of what is left behind
its first token, holds of all texts. -/
@[elab_as_elim]
theorem tokensFrom_induction {motive : Option Token → List Char → Prop}
    (blank : ∀ previous text, text.dropWhile isBlankAscii = [] → motive previous text)
    (cut : ∀ previous text cut, firstCut? previous (text.dropWhile isBlankAscii) = some cut →
      motive (some cut.token) cut.rest → motive previous text)
    (previous : Option Token) (text : List Char) : motive previous text := by
  induction 0, previous, text using locatedFrom.induct with
  | case1 position previous text hnone =>
    refine blank previous text ?_
    cases hblank : text.dropWhile isBlankAscii with
    | nil => rfl
    | cons first rest =>
      obtain ⟨found, hfound⟩ := exists_firstCut previous first rest
      rw [hblank, hfound] at hnone
      cases hnone
  | case2 position previous text found hfound _ ih => exact cut previous text found hfound ih

end Lexeme

namespace Scan

open Lexeme

/-- A token is located where its first character is, behind the blanks. -/
theorem gives_located {previous : Option Token} {text : List Char} {cut : Cut} (start : Nat)
    (h : firstCut? previous (text.dropWhile isBlankAscii) = some cut) :
    (located previous).Gives ⟨start, [], text⟩
      (some ⟨start + (text.takeWhile isBlankAscii).length, cut.token⟩)
      ⟨start + (text.takeWhile isBlankAscii).length + cut.lexeme.length, [], cut.rest⟩ := by
  refine (gives_ignoreBlanks _).bind (gives_get_bind fun c hc => ?_)
  have hstart : c.start = start + (text.takeWhile isBlankAscii).length :=
    congrArg View.start hc
  refine (gives_token _ h).bind ?_
  rw [hstart]
  exact gives_pure _ _

/-- In a blank rest there is no token, and the cursor goes to the end of it. -/
theorem gives_located_none {previous : Option Token} {text : List Char} (start : Nat)
    (h : text.dropWhile isBlankAscii = []) :
    (located previous).Gives ⟨start, [], text⟩ none ⟨start + text.length, [], []⟩ := by
  have htake : text.takeWhile isBlankAscii = text := by
    have hsplit := List.takeWhile_append_dropWhile (p := isBlankAscii) (l := text)
    rwa [h, List.append_nil] at hsplit
  have hblanks := gives_ignoreBlanks ⟨start, [], text⟩
  simp only [htake, h] at hblanks
  refine hblanks.bind (gives_get_bind fun c _ => ?_)
  exact (gives_token_none previous _).bind (gives_pure _ _)

/-- The lexer cuts off one token after the other up to the end of the text. -/
theorem gives_tokens {count : Nat} {text : List Char} (hcount : text.length ≤ count)
    (previous : Option Token) (start : Nat) :
    (tokens count previous).Gives ⟨start, [], text⟩ (locatedFrom start previous text)
      ⟨start + text.length, [], []⟩ := by
  induction count generalizing text previous start with
  | zero =>
    have htext : text = [] := List.length_eq_zero_iff.mp (Nat.le_zero.mp hcount)
    subst htext
    rw [locatedFrom_of_blank rfl]
    exact (gives_ignoreBlanks _).bind (gives_pure _ _)
  | succ count ih =>
    cases hblank : text.dropWhile isBlankAscii with
    | nil =>
      rw [locatedFrom_of_blank hblank]
      exact (gives_located_none start hblank).bind (gives_pure _ _)
    | cons first rest =>
      obtain ⟨cut, hcut⟩ := exists_firstCut previous first rest
      rw [← hblank] at hcut
      obtain ⟨hsplit, hne⟩ := append_of_firstCut? hcut
      have hlength : text.length =
          (text.takeWhile isBlankAscii).length + (cut.lexeme.length + cut.rest.length) := by
        rw [← List.length_append, hsplit, ← List.length_append, List.takeWhile_append_dropWhile]
      have hpos := List.length_pos_iff.mpr hne
      rw [locatedFrom_of_cut hcut]
      refine (gives_located start hcut).bind ?_
      have hend : start + text.length = start + (text.takeWhile isBlankAscii).length +
          cut.lexeme.length + cut.rest.length := by
        omega
      rw [hend]
      exact (ih (by omega) _ _).bind (gives_pure _ _)

end Scan

namespace Lexed

/-- The tokens of a text, and the end of the text as the place where the last
search for a token ended. -/
theorem ofChars_eq (text : List Char) :
    ofChars text = ⟨Lexeme.locatedFrom 0 none text, text.length⟩ := by
  obtain ⟨htokens, hview⟩ :=
    Scan.gives_tokens (Nat.le_refl text.length) none 0 (Cursor.ofText text) rfl
  have hstart := congrArg View.start hview
  rw [Nat.zero_add] at hstart
  unfold ofChars
  rw [← htokens]
  exact congrArg (Lexed.mk _) hstart

/-- Lexing a text with the cursor gives the tokens that are cut from it. -/
theorem tokens_ofText (text : String) :
    (ofText text).tokens = Lexeme.tokensFrom none text.toList := by
  rw [ofText, ofChars_eq]
  rfl

end Lexed

end FormulaCalculator
