import FormulaCalculator.Proofs.FormulaGrammar
import FormulaCalculator.Proofs.NumberRoundTrip

/-!
# Cutting written expressions into tokens

An expression in the usual order is written from the texts of its parts, with
parentheses and signs between them. A part is cut into its own tokens wherever
it stands: behind a token that ends no operand, and before a blank, a closing
parenthesis or the end of the text. These three contexts are the only ones in
which parts are written.
-/

set_option autoImplicit false

namespace FormulaCalculator

open FormulaCalculator.Text

namespace Lexeme

variable {previous : Option Token} {text text' rest : List Char} {tokens tokens' : List Token}

/-- Only the characters behind the blanks at the start decide on the tokens. -/
theorem tokensFrom_congr (h : text.dropWhile isBlankAscii = text'.dropWhile isBlankAscii) :
    tokensFrom previous text = tokensFrom previous text' := by
  cases hblank : text.dropWhile isBlankAscii with
  | nil =>
    rw [tokensFrom_of_blank hblank, tokensFrom_of_blank (h ▸ hblank)]
  | cons first rest =>
    obtain ⟨cut, hcut⟩ := exists_firstCut previous first rest
    rw [← hblank] at hcut
    have hcut' : firstCut? previous (text'.dropWhile isBlankAscii) = some cut := by
      rw [← h, hcut]
    rw [tokensFrom_of_cut hcut, tokensFrom_of_cut hcut']

/-- A space in front of a text makes no token. -/
theorem tokensFrom_space : tokensFrom previous (' ' :: text) = tokensFrom previous text :=
  tokensFrom_congr rfl

/-- A text that starts with no blank is cut at its first character. -/
theorem tokensFrom_cons {first : Char} {cut : Cut} (hblank : isBlankAscii first = false)
    (hcut : firstCut? previous (first :: rest) = some cut) :
    tokensFrom previous (first :: rest) = cut.token :: tokensFrom (some cut.token) cut.rest := by
  apply tokensFrom_of_cut
  rwa [List.dropWhile_cons_of_neg (by rw [hblank]; exact Bool.false_ne_true)]

/-- Nothing in a class without blanks is a blank. -/
theorem isBlankAscii_eq_false {inClass : Char → Bool} {c : Char}
    (hnone : [' ', '\t', '\n', '\x0c', '\r'].all (fun blank => !inClass blank) = true)
    (h : inClass c = true) : isBlankAscii c = false := by
  rw [← Bool.not_eq_true]
  intro hblank
  have hmem : c ∈ [' ', '\t', '\n', '\x0c', '\r'] := by
    simpa [isBlankAscii, or_assoc] using hblank
  have hnot := List.all_eq_true.mp hnone c hmem
  rw [h] at hnot
  cases hnot

/-- A sign is passed by itself, wherever it stands. -/
theorem tokensFrom_sign {sign : String} {first : Char} (hsign : sign.toList = [first])
    (hfirst : Scan.operatorSigns.contains first = true) :
    tokensFrom previous (sign.toList ++ rest) =
      .ofSign sign previous :: tokensFrom (some (.ofSign sign previous)) rest := by
  have hcut : firstCut? previous (first :: rest) = some ⟨.ofSign sign previous, [first], rest⟩ := by
    rw [firstCut?, if_pos hfirst, ← hsign, String.ofList_toList]
  rw [hsign, List.singleton_append, tokensFrom_cons (isBlankAscii_eq_false rfl hfirst) hcut]

/-- An opening parenthesis is a token whatever stands around it. -/
theorem tokensFrom_opening :
    tokensFrom previous ('(' :: rest) = .opening :: tokensFrom (some .opening) rest :=
  @tokensFrom_sign previous rest "(" '(' rfl rfl

/-- A closing parenthesis is a token whatever stands around it. -/
theorem tokensFrom_closing :
    tokensFrom previous (')' :: rest) = .closing :: tokensFrom (some .closing) rest :=
  @tokensFrom_sign previous rest ")" ')' rfl rfl

/-- A minus where no operand has ended is one in front of an operand. -/
theorem tokensFrom_minus (h : previous.any Token.endsOperand = false) :
    tokensFrom previous ('-' :: rest) = .unary "-" :: tokensFrom (some (.unary "-")) rest := by
  have htoken : Token.ofSign "-" previous = .unary "-" := by
    simp [Token.ofSign, h]
  have hminus := @tokensFrom_sign previous rest "-" '-' rfl rfl
  rwa [htoken] at hminus

/-- What starts a number or a name is no sign. -/
theorem contains_operatorSigns_eq_false {c : Char} (h : c.isDigit = true ∨ startsName c = true) :
    Scan.operatorSigns.contains c = false := by
  have hnone : Scan.operatorSigns.all (fun c => !c.isDigit && !startsName c) = true := rfl
  rw [← Bool.not_eq_true]
  intro hsign
  have hneither := List.all_eq_true.mp hnone c (by simpa using hsign)
  simp only [Bool.and_eq_true, Bool.not_eq_true'] at hneither
  rw [hneither.1, hneither.2] at h
  simp at h

/-- No name starts with a digit. -/
theorem startsName_of_isDigit {c : Char} (h : c.isDigit = true) : startsName c = false := by
  rw [← Bool.not_eq_true]
  intro hstart
  simp only [startsName, Bool.or_eq_true, beq_iff_eq] at hstart
  simp only [Char.isDigit, Bool.and_eq_true, decide_eq_true_eq, ge_iff_le] at h
  rcases hstart with halpha | rfl
  · simp only [Char.isAlpha, Char.isUpper, Char.isLower, Bool.or_eq_true, Bool.and_eq_true,
      decide_eq_true_eq] at halpha
    have hnine : c.val.toNat ≤ 57 := h.2
    rcases halpha with halpha | halpha
    · have hlow : 65 ≤ c.val.toNat := halpha.1
      omega
    · have hlow : 97 ≤ c.val.toNat := halpha.1
      omega
  · exact absurd h (by decide)

/-- A name is passed as a whole, and what follows decides what it is. -/
theorem tokensFrom_name {name : String} (hname : IsName name)
    (hrest : ∀ c ∈ rest.head?, continuesName c = false) :
    tokensFrom previous (name.toList ++ rest) =
      .ofName name rest.head? :: tokensFrom (some (.ofName name rest.head?)) rest := by
  obtain ⟨first, more, rfl, hfirst, hmore⟩ := hname
  obtain ⟨htake, hdrop⟩ := takeWhile_append_stop hmore hrest
  have hcut : firstCut? previous (first :: (more ++ rest)) =
      some ⟨.ofName (String.ofList (first :: more)) rest.head?, first :: more, rest⟩ := by
    rw [firstCut?, contains_operatorSigns_eq_false (.inr hfirst), hfirst, htake, hdrop]
    rfl
  rw [String.toList_ofList, List.cons_append,
    tokensFrom_cons (isBlankAscii_eq_false rfl hfirst) hcut]

/-- A decimal text is passed as a whole where nothing follows that could go on with
it. -/
theorem tokensFrom_number {lexeme whole fraction : List Char}
    (hdecimal : Number.IsDecimal lexeme whole fraction)
    (hrest : ∀ c ∈ rest.head?, c.isDigit = false ∧ c ≠ '.' ∧ c ≠ 'e' ∧ c ≠ 'E') :
    tokensFrom previous (lexeme ++ rest) =
      .ofNumber (String.ofList lexeme) ::
        tokensFrom (some (.ofNumber (String.ofList lexeme))) rest := by
  have hsplit := hdecimal.splitNumber_eq hrest
  have hpoint : rest.head? ≠ some '.' := fun hhead => (hrest '.' hhead).2.1 rfl
  have hnumber : numberCut (lexeme ++ rest) = ⟨.ofNumber (String.ofList lexeme), lexeme, rest⟩ := by
    rw [numberCut, hsplit]
    exact if_neg hpoint
  obtain ⟨first, more, rfl, hdigit⟩ := hdecimal.exists_cons
  have hcut : firstCut? previous (first :: (more ++ rest)) =
      some ⟨.ofNumber (String.ofList (first :: more)), first :: more, rest⟩ := by
    rw [firstCut?, contains_operatorSigns_eq_false (.inl hdigit), startsName_of_isDigit hdigit,
      hdigit, ← List.cons_append, hnumber]
    rfl
  rw [List.cons_append, tokensFrom_cons (isBlankAscii_eq_false rfl hdigit) hcut]

/-- What can follow on a part: a blank, a closing parenthesis or nothing. -/
def FollowsPart (rest : List Char) : Prop := ∀ c ∈ rest.head?, c = ' ' ∨ c = ')'

/-- Behind a token that ends no operand, the text is cut into the tokens, and what
follows is cut as behind an operand. -/
def Lexes (text : List Char) (tokens : List Token) : Prop :=
  ∀ (previous : Option Token) (rest : List Char), previous.any Token.endsOperand = false →
    FollowsPart rest →
      ∃ last : Token, last.endsOperand = true ∧
        tokensFrom previous (text ++ rest) = tokens ++ tokensFrom (some last) rest

/-- What can follow a part ends the numeral in front of it. -/
theorem FollowsPart.stopsNumber (hrest : FollowsPart rest) :
    ∀ c ∈ rest.head?, c.isDigit = false ∧ c ≠ '.' ∧ c ≠ 'e' ∧ c ≠ 'E' := by
  intro c hc
  rcases hrest c hc with rfl | rfl <;> decide

/-- The shortest text of a double is read as the same double, and as one token. -/
theorem tokensFrom_shortestText {value : Float} (h : Number.Unsigned value)
    (hrest : FollowsPart rest) :
    tokensFrom previous (Number.shortestText value ++ rest) =
      .number value :: tokensFrom (some (.number value)) rest := by
  obtain ⟨whole, fraction, hdecimal, hparse⟩ := h.exists_isDecimal
  rw [Number.toText] at hparse
  have htoken : Token.ofNumber (String.ofList (Number.shortestText value)) = .number value := by
    rw [Token.ofNumber, hparse]
  rw [tokensFrom_number hdecimal hrest.stopsNumber, htoken]

/-- A number is cut into the one token that it is. -/
theorem lexes_number {value : Float} (h : Number.Unsigned value) :
    Lexes (Number.shortestText value) [.number value] :=
  fun _ _ _ hrest => ⟨.number value, rfl, tokensFrom_shortestText h hrest⟩

/-- What can follow a part ends the name in front of it. -/
theorem FollowsPart.continuesName_eq_false (hrest : FollowsPart rest) :
    ∀ c ∈ rest.head?, continuesName c = false := by
  intro c hc
  rcases hrest c hc with rfl | rfl <;> decide

/-- What can follow a part is no opening parenthesis, so a name in front of it is no
call. -/
theorem FollowsPart.head?_ne_opening (hrest : FollowsPart rest) : rest.head? ≠ some '(' := by
  intro hhead
  rcases hrest '(' hhead with h | h <;> exact absurd h (by decide)

/-- The variable is read as the argument, and as one token. -/
theorem tokensFrom_argument (hrest : FollowsPart rest) :
    tokensFrom previous (argumentName.toList ++ rest) =
      .argument argumentName :: tokensFrom (some (.argument argumentName)) rest := by
  have hname : IsName argumentName := ⟨'x', [], rfl, by decide, by simp⟩
  have htoken : Token.ofName argumentName rest.head? = .argument argumentName := by
    rw [Token.ofName, if_neg hrest.head?_ne_opening, if_pos rfl]
  rw [tokensFrom_name hname hrest.continuesName_eq_false, htoken]

/-- The variable is cut into the one token that it is. -/
theorem lexes_argument : Lexes argumentName.toList [.argument argumentName] := by
  intro previous rest _ hrest
  exact ⟨.argument argumentName, rfl, tokensFrom_argument hrest⟩

/-- A name other than that of the variable is cut into a constant. -/
theorem lexes_constant {name : String} (hname : IsName name) (hne : name ≠ argumentName) :
    Lexes name.toList [.constant name] := by
  intro previous rest _ hrest
  have htoken : Token.ofName name rest.head? = .constant name := by
    rw [Token.ofName, if_neg hrest.head?_ne_opening, if_neg hne]
  refine ⟨.constant name, rfl, ?_⟩
  rw [tokensFrom_name hname hrest.continuesName_eq_false, htoken]
  rfl

/-- A part in parentheses is cut into its tokens with the parentheses around them. -/
theorem Lexes.enclosed (h : Lexes text tokens) :
    Lexes ('(' :: text ++ [')']) (.opening :: tokens ++ [.closing]) := by
  intro previous rest _ _
  obtain ⟨last, -, heq⟩ := h (some .opening) (')' :: rest) rfl (by simp [FollowsPart])
  refine ⟨.closing, rfl, ?_⟩
  have hsplit : '(' :: text ++ [')'] ++ rest = '(' :: (text ++ ')' :: rest) := by simp
  rw [hsplit, tokensFrom_opening, heq, tokensFrom_closing]
  simp

/-- A part with a minus directly in front is cut into its tokens with the minus in
front. -/
theorem Lexes.negated (h : Lexes text tokens) : Lexes ('-' :: text) (.unary "-" :: tokens) := by
  intro previous rest hprevious hrest
  obtain ⟨last, hlast, heq⟩ := h (some (.unary "-")) rest rfl hrest
  refine ⟨last, hlast, ?_⟩
  rw [List.cons_append, tokensFrom_minus hprevious, heq]
  rfl

/-- A part in parentheses with a name in front is cut into the call and the group. -/
theorem Lexes.called {name : String} (hname : IsName name) (h : Lexes text tokens) :
    Lexes (name.toList ++ ('(' :: text ++ [')']))
      (.call name :: .opening :: tokens ++ [.closing]) := by
  intro previous rest _ hrest
  obtain ⟨last, hlast, heq⟩ := h.enclosed (some (.call name)) rest rfl hrest
  refine ⟨last, hlast, ?_⟩
  rw [List.append_assoc, tokensFrom_name hname (by simp; decide)]
  have htoken : Token.ofName name ('(' :: text ++ [')'] ++ rest).head? = .call name := if_pos rfl
  rw [htoken, heq]
  rfl

/-- Two parts with a sign and spaces between them are cut into their tokens with the sign
between them. -/
theorem Lexes.joined {sign : String} {first : Char} (hsign : sign.toList = [first])
    (hfirst : Scan.operatorSigns.contains first = true) (hopening : sign ≠ "(")
    (hclosing : sign ≠ ")") (h : Lexes text tokens) (h' : Lexes text' tokens') :
    Lexes (text ++ ' ' :: first :: ' ' :: text') (tokens ++ .binary sign :: tokens') := by
  intro previous rest hprevious hrest
  obtain ⟨last, hlast, heq⟩ :=
    h previous (' ' :: first :: ' ' :: (text' ++ rest)) hprevious (by simp [FollowsPart])
  obtain ⟨last', hlast', heq'⟩ := h' (some (.binary sign)) rest rfl hrest
  refine ⟨last', hlast', ?_⟩
  have htoken : Token.ofSign sign (some last) = .binary sign := by
    rw [Token.ofSign, if_neg hopening, if_neg hclosing]
    simp [hlast]
  have hcut := @tokensFrom_sign (some last) (' ' :: (text' ++ rest)) sign first hsign hfirst
  rw [htoken, hsign, List.singleton_append] at hcut
  have hsplit : text ++ ' ' :: first :: ' ' :: text' ++ rest =
      text ++ ' ' :: first :: ' ' :: (text' ++ rest) := by simp
  rw [hsplit, heq, tokensFrom_space, hcut, tokensFrom_space, heq']
  simp

end Lexeme

end FormulaCalculator
