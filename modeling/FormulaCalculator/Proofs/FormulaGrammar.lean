import FormulaCalculator.Proofs.Grouping
import FormulaCalculator.Proofs.Lexing

/-!
# The grammar of formulas

A formula is a sum of products of factors. Factors are multiplied by a sign or
stand side by side, if the second one starts with a name or a parenthesis. A
minus takes a whole factor, and so does the sign of a power on its right, which
makes powers associate to the right and puts them before the minus in front of
them. The other operators associate to the left.

The grammar is given together with the tree of each derivation. Its tokens are
those that a text can have, and these are described here too.
-/

set_option autoImplicit false

namespace FormulaCalculator

namespace Token

/-- The token is a sign between the products of a sum. -/
inductive Adds : Token → Prop where
  | plus : Adds (.binary "+")
  | minus : Adds (.binary "-")

/-- The token is a sign between the factors of a product. -/
inductive Scales : Token → Prop where
  | times : Scales (.binary "*")
  | over : Scales (.binary "/")
  | modulo : Scales (.binary "%")

/-- Plus and minus are left associative, on the level of sums. -/
theorem Adds.operator? {sign : Token} (h : sign.Adds) :
    ∃ op, sign.operator? = some op ∧ op.precedence = 2 ∧ op.associativity = .left ∧
      op.arity = .binary := by
  cases h <;> exact ⟨_, rfl, rfl, rfl, rfl⟩

/-- The signs of products and quotients are left associative, and bind tighter than those
of sums. -/
theorem Scales.operator? {sign : Token} (h : sign.Scales) :
    ∃ op, sign.operator? = some op ∧ op.precedence = 3 ∧ op.associativity = .left ∧
      op.arity = .binary := by
  cases h <;> exact ⟨_, rfl, rfl, rfl, rfl⟩

/-- The sign of a power. -/
def caret : Operator := ⟨"^", 5, .right, .binary⟩

/-- The sign of a power is in the table. -/
theorem operator?_caret : (Token.binary "^").operator? = some caret := rfl

/-- The minus in front of an operand. -/
def negation : Operator := ⟨"-", 5, .right, .unary⟩

/-- The minus in front of an operand is in the table. -/
theorem operator?_negation : (Token.unary "-").operator? = some negation := rfl

/-- Whether a token that starts a factor makes a product with the factor before
it. -/
def juxtaposes : Token → Bool
  | .argument _ | .constant _ | .call _ | .opening => true
  | _ => false

end Token

/-- The kinds of parts that a formula has. -/
inductive Category where
  | sum
  | product
  | factor
  | primary
deriving DecidableEq, Repr

/-- The tokens are a part of the given kind, and the tree is the one of their
derivation. -/
inductive Derives : Category → List Token → SyntaxTree → Prop where
  | product {ts : List Token} {t : SyntaxTree} : Derives .product ts t → Derives .sum ts t
  | added {ts us : List Token} {t u : SyntaxTree} {sign : Token} :
    Derives .sum ts t → sign.Adds → Derives .product us u →
      Derives .sum (ts ++ sign :: us) (.binary sign t u)
  | factor {ts : List Token} {t : SyntaxTree} : Derives .factor ts t → Derives .product ts t
  | scaled {ts us : List Token} {t u : SyntaxTree} {sign : Token} :
    Derives .product ts t → sign.Scales → Derives .factor us u →
      Derives .product (ts ++ sign :: us) (.binary sign t u)
  /-- Factors side by side are multiplied. -/
  | juxtaposed {ts us : List Token} {t u : SyntaxTree} :
    Derives .product ts t → Derives .factor us u → us.head?.any Token.juxtaposes = true →
      Derives .product (ts ++ us) (.binary (.binary "*") t u)
  | negated {ts : List Token} {t : SyntaxTree} :
    Derives .factor ts t → Derives .factor (.unary "-" :: ts) (.unary (.unary "-") t)
  | primary {ts : List Token} {t : SyntaxTree} : Derives .primary ts t → Derives .factor ts t
  | power {ts us : List Token} {t u : SyntaxTree} :
    Derives .primary ts t → Derives .factor us u →
      Derives .factor (ts ++ .binary "^" :: us) (.binary (.binary "^") t u)
  | leaf {token : Token} : token.isOperand = true → Derives .primary [token] (.leaf token)
  | call {name : String} {ts : List Token} {t : SyntaxTree} :
    Derives .sum ts t →
      Derives .primary (.call name :: .opening :: ts ++ [.closing]) (.unary (.call name) t)
  | group {ts : List Token} {t : SyntaxTree} :
    Derives .sum ts t → Derives .primary (.opening :: ts ++ [.closing]) t

/-- The text is a name. -/
def IsName (name : String) : Prop :=
  ∃ first rest, name = String.ofList (first :: rest) ∧ Text.startsName first = true ∧
    ∀ c ∈ rest, Text.continuesName c = true

/-- What can start a name can go on with it as well. -/
theorem Text.continuesName_of_startsName {c : Char} (h : Text.startsName c = true) :
    Text.continuesName c = true := by
  rw [Text.startsName, Bool.or_eq_true] at h
  rw [Text.continuesName, Char.isAlphanum, Bool.or_eq_true, Bool.or_eq_true]
  exact h.imp_left .inl

/-- A text of letters is a name. -/
theorem isName_of_letters {name : String} (hne : name.toList ≠ [])
    (hletters : name.toList.all Text.startsName = true) : IsName name := by
  obtain ⟨first, rest, hcons⟩ := List.exists_cons_of_ne_nil hne
  rw [hcons, List.all_cons, Bool.and_eq_true] at hletters
  refine ⟨first, rest, ?_, hletters.1, fun c hc => ?_⟩
  · rw [← hcons, String.ofList_toList]
  · exact Text.continuesName_of_startsName (List.all_eq_true.mp hletters.2 c hc)

/-- The token can be cut off a text with the given rest. The only sign in front
of an operand is a minus, the signs between operands are those of the grammar,
and a call is a name directly before a parenthesis. -/
inductive Token.TypedBefore (rest : List Char) : Token → Prop where
  | opening : TypedBefore rest .opening
  | closing : TypedBefore rest .closing
  | negation : TypedBefore rest (.unary "-")
  | adds {sign : Token} : sign.Adds → TypedBefore rest sign
  | scales {sign : Token} : sign.Scales → TypedBefore rest sign
  | power : TypedBefore rest (.binary "^")
  | call {name : String} : IsName name → rest.head? = some '(' → TypedBefore rest (.call name)
  | argument : TypedBefore rest (.argument argumentName)
  | constant {name : String} : IsName name → name ≠ argumentName → TypedBefore rest (.constant name)
  | number {first : Char} {more : List Char} {value : Float} : first.isDigit = true →
      Number.parse (String.ofList (first :: more)) = .ok value → TypedBefore rest (.number value)
  | stray {lexeme : String} : TypedBefore rest (.stray lexeme)

/-- The tokens are some that a text can have. -/
structure Typed (tokens : List Token) : Prop where
  unary : ∀ symbol, .unary symbol ∈ tokens → symbol = "-"
  binary : ∀ symbol, .binary symbol ∈ tokens →
    (Token.binary symbol).Adds ∨ (Token.binary symbol).Scales ∨ symbol = "^"
  call : ∀ before name after, tokens = before ++ .call name :: after →
    after.head? = some .opening

namespace Lexeme

open FormulaCalculator.Text

variable {previous : Option Token} {text rest : List Char} {cut : Cut}

/-- A token that is read from a sign is one that can be typed, whatever comes next. -/
theorem typedBefore_ofSign {first : Char} (h : Scan.operatorSigns.contains first = true) :
    (Token.ofSign (String.ofList [first]) previous).TypedBefore rest := by
  simp only [Scan.operatorSigns, List.contains_cons, List.contains_nil, Bool.or_false,
    Bool.or_eq_true, beq_iff_eq] at h
  rcases h with rfl | rfl | rfl | rfl | rfl | rfl | rfl | rfl
  · exact .adds .plus
  · change Token.TypedBefore rest (Token.ofSign "-" previous)
    cases hprevious : previous.any Token.endsOperand with
    | true =>
      have htoken : Token.ofSign "-" previous = .binary "-" := by
        simp [Token.ofSign, hprevious]
      rw [htoken]
      exact .adds .minus
    | false =>
      have htoken : Token.ofSign "-" previous = .unary "-" := by
        simp [Token.ofSign, hprevious]
      rw [htoken]
      exact .negation
  · exact .scales .times
  · exact .scales .over
  · exact .scales .modulo
  · exact .power
  · exact .opening
  · exact .closing

/-- What the scan of a name takes is a name. -/
theorem isName_of_startsName {first : Char} (h : startsName first = true) (text : List Char) :
    IsName (String.ofList (first :: text.takeWhile continuesName)) :=
  ⟨first, _, rfl, h, List.all_eq_true.mp List.all_takeWhile⟩

/-- A name is an argument or a call according to what comes next. -/
theorem typedBefore_ofName {name : String} (hname : IsName name) :
    (Token.ofName name rest.head?).TypedBefore rest := by
  unfold Token.ofName
  split
  · next h => exact .call hname h
  · split
    · next h =>
      rw [h]
      exact .argument
    · next h => exact .constant hname h

/-- What starts with a digit is a number or a bad literal, whatever comes next. -/
theorem typedBefore_numberCut {first : Char} (hfirst : first.isDigit = true) (text : List Char) :
    (numberCut (first :: text)).token.TypedBefore rest := by
  have hnumber : ∃ more, (splitNumber (first :: text)).1 = first :: more := by
    rw [splitNumber, List.takeWhile_cons_of_pos hfirst]
    exact ⟨_, rfl⟩
  obtain ⟨more, hmore⟩ := hnumber
  unfold numberCut
  dsimp only
  split
  · exact .stray
  · dsimp only
    rw [hmore, Token.ofNumber]
    split
    · next hparse => exact .number hfirst hparse
    · exact .stray

/-- Every token that is cut from a text can be typed in front of the rest of it. -/
theorem typedBefore_of_firstCut? (h : firstCut? previous text = some cut) :
    cut.token.TypedBefore cut.rest := by
  cases cuts_of_firstCut? h with
  | sign hsign => exact typedBefore_ofSign hsign
  | name _ hname => exact typedBefore_ofName (isName_of_startsName hname _)
  | number _ _ hdigit => exact typedBefore_numberCut hdigit _
  | stray _ _ _ => exact .stray

/-- Every token of a text is cut off some end of it. -/
theorem exists_typedBefore {token : Token} (h : token ∈ tokensFrom previous text) :
    ∃ rest, token.TypedBefore rest := by
  induction previous, text using tokensFrom_induction with
  | blank previous text hblank =>
    rw [tokensFrom_of_blank hblank] at h
    cases h
  | cut previous text cut hcut ih =>
    rw [tokensFrom_of_cut hcut] at h
    rcases List.mem_cons.mp h with rfl | hmem
    · exact ⟨cut.rest, typedBefore_of_firstCut? hcut⟩
    · exact ih hmem

/-- What stands behind a parenthesis that opens starts with the token of it. -/
theorem head?_tokensFrom_opening (h : text.head? = some '(') :
    (tokensFrom previous text).head? = some .opening := by
  obtain ⟨rest, rfl⟩ : ∃ rest, text = '(' :: rest := by
    cases text with
    | nil => cases h
    | cons first rest => exact ⟨rest, by rw [Option.some.inj h]⟩
  have hcut : firstCut? previous (('(' :: rest).dropWhile isBlankAscii) =
      some ⟨.opening, ['('], rest⟩ := rfl
  rw [tokensFrom_of_cut hcut]
  rfl

/-- The tokens of a text are of the kinds that the grammar knows. -/
theorem typed_tokensFrom (previous : Option Token) (text : List Char) :
    Typed (tokensFrom previous text) := by
  induction previous, text using tokensFrom_induction with
  | blank previous text hblank =>
    rw [tokensFrom_of_blank hblank]
    refine ⟨by simp, by simp, ?_⟩
    intro before name after h
    exact absurd h.symm (by simp)
  | cut previous text cut hcut ih =>
    have htyped := typedBefore_of_firstCut? hcut
    rw [tokensFrom_of_cut hcut]
    refine ⟨fun symbol hmem => ?_, fun symbol hmem => ?_, fun before name after hsplit => ?_⟩
    · rcases List.mem_cons.mp hmem with htoken | hmem
      · rw [← htoken] at htyped
        cases htyped with
        | negation => rfl
        | adds h | scales h => cases h
      · exact ih.unary symbol hmem
    · rcases List.mem_cons.mp hmem with htoken | hmem
      · rw [← htoken] at htyped
        cases htyped with
        | adds h => exact .inl h
        | scales h => exact .inr (.inl h)
        | power => exact .inr (.inr rfl)
      · exact ih.binary symbol hmem
    · cases before with
      | nil =>
        obtain ⟨htoken, hafter⟩ := List.cons.inj hsplit
        rw [htoken] at htyped
        rw [← hafter]
        cases htyped with
        | call _ hrest => exact head?_tokensFrom_opening hrest
        | adds h | scales h => cases h
      | cons first before => exact ih.call before name after (List.cons.inj hsplit).2

end Lexeme

end FormulaCalculator
