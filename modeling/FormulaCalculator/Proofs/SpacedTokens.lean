import FormulaCalculator.Proofs.JoinedTexts
import FormulaCalculator.Proofs.TokenPieces

/-!
# Tokens written with spaces

The tokens of a text can be written down again, with a space behind each token but
the name of a call, which has its parenthesis directly behind it. What is written
has the same tokens, although numbers are written anew: the text of a token is cut
off as that token wherever the token before it is the same.
-/

set_option autoImplicit false

namespace FormulaCalculator

open FormulaCalculator.Text

/-- The texts of tokens with a space between them, but with none behind the name of
a call. -/
def Token.spaced : List Token → String
  | [] => ""
  | [token] => token.symbol
  | .call name :: more => name ++ spaced more
  | token :: more => token.symbol ++ " " ++ spaced more

namespace Lexeme

open Token (spaced)

variable {previous : Option Token} {text rest lexeme head tail : List Char} {cut : Cut}

/-- What can be written behind a token that is no call: a space or nothing. -/
inductive FollowsToken : List Char → Prop where
  | nothing : FollowsToken []
  | space (more : List Char) : FollowsToken (' ' :: more)

/-- A space or the end of a text ends every token that is no call. -/
theorem FollowsToken.followsPart (h : FollowsToken rest) : FollowsPart rest := by
  intro c hc
  cases h with
  | nothing => cases hc
  | space more => exact .inl (Option.some.inj hc).symm

/-- The longest one in front of a text is the longest in front of any part of the
text that it is in front of. -/
theorem IsLongest.of_prefix {kind : List Char → Prop} {found : List Char}
    (h : IsLongest kind found text) (hfound : found <+: lexeme) (hlexeme : lexeme <+: text) :
    IsLongest kind found lexeme :=
  ⟨h.isKind, hfound, fun candidate hkind hfront =>
    h.longest candidate hkind (hfront.trans hlexeme)⟩

/-- A bad number is one by itself too. -/
theorem numberCut_of_isBadNumber (h : IsBadNumber rest lexeme) :
    numberCut lexeme = ⟨.stray (String.ofList lexeme), lexeme, []⟩ := by
  obtain @⟨head, tail, hlongest, hpoint, htail, -⟩ := h
  have hfront : head ++ tail <+: head ++ (tail ++ rest) := by
    rw [← List.append_assoc]
    exact List.prefix_append _ rest
  have hlongest' : IsLongest IsNumeral head (head ++ tail) :=
    hlongest.of_prefix (List.prefix_append head tail) hfront
  obtain ⟨first, more, hhead, hdigit⟩ := Number.exists_cons_of_isNumeral hlongest.isKind
  have hnumber : (splitNumber (head ++ tail)).1 = head := by
    rw [hhead] at hlongest' ⊢
    exact (isLongest_splitNumber hdigit).unique hlongest'
  have hrest : (splitNumber (head ++ tail)).2 = tail := by
    have hsplit := splitNumber_append (head ++ tail)
    rw [hnumber] at hsplit
    exact List.append_cancel_left hsplit
  have hall : tail.takeWhile isNumeric = tail := List.takeWhile_eq_self_iff.mpr htail
  have hnone : tail.dropWhile isNumeric = [] := List.dropWhile_eq_nil_iff.mpr htail
  rw [numberCut]
  simp only [hnumber, hrest, hpoint, hall, hnone, if_true]

/-- A bad number starts with a digit, as numbers do. -/
theorem exists_cons_of_isBadNumber (h : IsBadNumber rest lexeme) :
    ∃ first more, lexeme = first :: more ∧ first.isDigit = true := by
  obtain @⟨head, tail, hlongest, -, -, -⟩ := h
  obtain ⟨first, more, rfl, hdigit⟩ := Number.exists_cons_of_isNumeral hlongest.isKind
  exact ⟨first, more ++ tail, rfl, hdigit⟩

/-- A bad number is read again as the same stray token. -/
theorem tokensFrom_badNumber (h : IsBadNumber rest lexeme) {after : List Char}
    (hafter : FollowsToken after) :
    tokensFrom previous (lexeme ++ after) =
      .stray (String.ofList lexeme) ::
        tokensFrom (some (.stray (String.ofList lexeme))) after := by
  have hnumber := numberCut_of_isBadNumber h
  obtain ⟨first, more, rfl, hdigit⟩ := exists_cons_of_isBadNumber h
  have hcut : firstCut? previous (first :: more) =
      some ⟨.stray (String.ofList (first :: more)), first :: more, []⟩ := by
    rw [firstCut?, contains_operatorSigns_eq_false (.inl hdigit), startsName_of_isDigit hdigit,
      hdigit, hnumber]
    rfl
  have hblank : isBlankAscii first = false := isBlankAscii_eq_false rfl hdigit
  cases hafter with
  | nothing => rw [List.append_nil, tokensFrom_cons hblank hcut]
  | space more' => exact tokensFrom_cons hblank (firstCut?_append_blank hcut more')

/-- What is written behind a token: the parenthesis of a call, and else a space or
nothing. -/
def WrittenBehind (rest : List Char) : Token → Prop
  | .call _ => rest.head? = some '('
  | _ => FollowsToken rest

/-- A name is read again as an argument, a constant or a call, according to the
parenthesis behind it. -/
theorem tokensFrom_ofName {name : String} {following : Option Char} (hname : IsName name)
    (hrest : WrittenBehind rest (.ofName name following)) :
    tokensFrom previous (name.toList ++ rest) =
      .ofName name following :: tokensFrom (some (.ofName name following)) rest := by
  by_cases hcall : following = some '('
  · subst hcall
    have hhead : rest.head? = some '(' := hrest
    have hstop : ∀ c ∈ rest.head?, continuesName c = false := by
      rw [hhead]
      rintro c ⟨⟩
      decide
    rw [tokensFrom_name hname hstop, hhead]
  · have hfollows : FollowsPart rest := by
      rw [Token.ofName, if_neg hcall] at hrest
      split at hrest
      · exact FollowsToken.followsPart hrest
      · exact FollowsToken.followsPart hrest
    have htoken : Token.ofName name rest.head? = .ofName name following := by
      rw [Token.ofName, Token.ofName, if_neg hcall, if_neg hfollows.head?_ne_opening]
    rw [tokensFrom_name hname hfollows.continuesName_eq_false, htoken]

/-- The text of a token is cut off as the token. -/
theorem tokensFrom_symbol (h : firstCut? previous text = some cut)
    (hblank : ∀ c ∈ text.head?, isBlankAscii c = false)
    (hfinite : ∀ value, cut.token = .number value → value.isFinite = true)
    (hrest : WrittenBehind rest cut.token) :
    tokensFrom previous (cut.token.symbol.toList ++ rest) =
      cut.token :: tokensFrom (some cut.token) rest := by
  cases cuts_of_firstCut? h with
  | sign hsign =>
    rw [Token.symbol_ofSign]
    exact tokensFrom_sign String.toList_ofList hsign
  | name _ hname =>
    rw [Token.symbol_ofName]
    exact tokensFrom_ofName (isName_of_startsName hname _) hrest
  | @number first more _ _ hdigit =>
    rcases @numberCut_cases first more hdigit with
      ⟨value, lexeme, after, heq, hlongest, -, hparse⟩ | ⟨lexeme, after, heq, hbad⟩
    · rw [heq] at hfinite hrest ⊢
      obtain ⟨first, more, rfl, hfirst⟩ := Number.exists_cons_of_isNumeral hlongest.isKind
      have hunsigned := Number.unsigned_of_parse hfirst hparse (hfinite value rfl)
      rw [Token.symbol, Number.toText, String.toList_ofList]
      exact tokensFrom_shortestText hunsigned (FollowsToken.followsPart hrest)
    · rw [heq] at hrest ⊢
      rw [Token.symbol, String.toList_ofList]
      exact tokensFrom_badNumber hbad hrest
  | @stray first _ hsign hname hdigit =>
    have hcut : firstCut? previous (first :: rest) =
        some ⟨.stray (String.ofList [first]), [first], rest⟩ := by
      rw [firstCut?, hsign, hname, hdigit]
      rfl
    rw [Token.symbol, String.toList_ofList]
    exact tokensFrom_cons (hblank first rfl) hcut

/-- What is written for tokens goes on behind the first of them as it has to. -/
theorem exists_spaced_cons {token : Token} {more : List Token}
    (hcall : ∀ name, token = .call name → more.head? = some .opening) :
    ∃ rest, (spaced (token :: more)).toList = token.symbol.toList ++ rest ∧
      WrittenBehind rest token ∧
      ∀ previous, tokensFrom previous rest = tokensFrom previous (spaced more).toList := by
  cases more with
  | nil =>
    refine ⟨[], by simp [spaced], ?_, fun _ => rfl⟩
    cases token with
    | call name => cases hcall name rfl
    | _ => exact .nothing
  | cons next more =>
    cases token with
    | call name =>
      obtain rfl : next = .opening := Option.some.inj (hcall name rfl)
      refine ⟨(spaced (.opening :: more)).toList, by simp [spaced, Token.symbol], ?_, fun _ => rfl⟩
      cases more <;> simp [WrittenBehind, spaced, Token.symbol]
    | _ =>
      refine ⟨' ' :: (spaced (next :: more)).toList, by simp [spaced], .space _, fun _ => ?_⟩
      exact tokensFrom_space

/-- The tokens of a text, written with spaces, are cut off as they are. -/
theorem tokensFrom_spaced (previous : Option Token) (text : List Char) :
    (∀ value, .number value ∈ tokensFrom previous text → value.isFinite = true) →
      tokensFrom previous (spaced (tokensFrom previous text)).toList =
        tokensFrom previous text := by
  -- A minus is told by the token before it, which is the same in both texts.
  induction previous, text using tokensFrom_induction with
  | blank previous text hblank =>
    intro _
    rw [tokensFrom_of_blank hblank]
    exact tokensFrom_of_blank rfl
  | cut previous text cut hcut ih =>
    intro hfinite
    have htokens := tokensFrom_of_cut hcut
    have hcall (name : String) (hname : cut.token = .call name) :
        (tokensFrom (some cut.token) cut.rest).head? = some .opening :=
      (typed_tokensFrom previous text).call [] name _ (by rw [htokens, hname]; rfl)
    rw [htokens] at hfinite ⊢
    obtain ⟨hfirst, hmore⟩ : (∀ value, cut.token = .number value → value.isFinite = true) ∧
        ∀ value, .number value ∈ tokensFrom (some cut.token) cut.rest →
          value.isFinite = true :=
      ⟨fun value hvalue => hfinite value (by rw [hvalue]; exact List.mem_cons_self),
        fun value hmem => hfinite value (List.mem_cons_of_mem _ hmem)⟩
    obtain ⟨rest, hspaced, hbehind, hrest⟩ := exists_spaced_cons hcall
    rw [hspaced, tokensFrom_symbol hcut (head?_dropWhile isBlankAscii text) hfirst hbehind, hrest,
      ih hmore]

end Lexeme

/-- Writing the tokens of a text with spaces and cutting the result into tokens gives
the same tokens, if the numbers are finite. -/
theorem Lexed.tokens_ofText_spaced (text : String)
    (hfinite : ∀ value, .number value ∈ (ofText text).tokens → value.isFinite = true) :
    (ofText (Token.spaced (ofText text).tokens)).tokens = (ofText text).tokens := by
  rw [tokens_ofText] at hfinite ⊢
  rw [tokens_ofText, Lexeme.tokensFrom_spaced none text.toList hfinite]

/-- The tokens of `1e3-sin(x) 1.2.3$-e`, in which a number is written anew, a minus
stands before a call and a literal is bad. -/
def Lexed.mixedTokens : List Token :=
  [.number 1000, .binary "-", .call "sin", .opening, .argument "x", .closing, .stray "1.2.3",
    .stray "$", .unary "-", .constant "e"]

/-- The tokens of `1e3-sin(x) 1.2.3$-e` are found again in their spaced text, where the
number has another text. -/
theorem Lexed.tokens_ofText_spaced_mixedTokens :
    (ofText "1e3-sin(x) 1.2.3$-e").tokens = mixedTokens ∧
      (∀ value, .number value ∈ (ofText "1e3-sin(x) 1.2.3$-e").tokens → value.isFinite = true) ∧
      Token.spaced mixedTokens = "1000 - sin( x ) 1.2.3 $ - e" ∧
      (ofText (Token.spaced (ofText "1e3-sin(x) 1.2.3$-e").tokens)).tokens =
        (ofText "1e3-sin(x) 1.2.3$-e").tokens := by
  have htokens : (ofText "1e3-sin(x) 1.2.3$-e").tokens = mixedTokens := by
    decide +kernel
  have hfinite : ∀ value, .number value ∈ (ofText "1e3-sin(x) 1.2.3$-e").tokens →
      value.isFinite = true := by
    intro value hmem
    simp only [htokens, mixedTokens, List.mem_cons, Token.number.injEq, reduceCtorEq, or_false,
      List.not_mem_nil] at hmem
    rw [hmem]
    decide +kernel
  have hspaced : Token.spaced mixedTokens = "1000 - sin( x ) 1.2.3 $ - e" := by
    decide +kernel
  exact ⟨htokens, hfinite, hspaced, tokens_ofText_spaced _ hfinite⟩

end FormulaCalculator
