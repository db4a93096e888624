import FormulaCalculator.Proofs.FormulaGrammar
import FormulaCalculator.Proofs.NumberLiteral

/-!
# A text and its tokens

A text is made of its tokens and blanks. What characters a token can be made of,
and what can stand behind them, is said here for each kind of token without the
lexer, and the main statement is that every text falls into such pieces: nothing
is lost between them, each token is where its position says, and each takes as
many characters as it can.

The lexer works with a bound on the number of tokens. That the bound makes no
difference is part of the statement: asking for one token after the other comes
to an end, with the same tokens.
-/

set_option autoImplicit false

namespace FormulaCalculator

open FormulaCalculator.Text FormulaCalculator.Lexeme

namespace Text

/-- The character belongs to no lexeme of a formula and is no blank. -/
def isForeign (c : Char) : Bool :=
  !Scan.operatorSigns.contains c && !startsName c && !c.isDigit && !isBlankAscii c

end Text

namespace Lexeme

/-- A number that a point follows, with all digits and points behind it. -/
inductive IsBadNumber (rest : List Char) : List Char → Prop where
  | intro {head tail : List Char} : IsLongest IsNumeral head (head ++ (tail ++ rest)) →
      tail.head? = some '.' → (∀ c ∈ tail, isNumeric c = true) →
      (∀ c ∈ rest.head?, isNumeric c = false) → IsBadNumber rest (head ++ tail)

end Lexeme

namespace Token

/-- Whether a token is the name of something. -/
def isName : Token → Bool
  | .argument _ | .constant _ | .call _ => true
  | _ => false

/-- Whether a token is the sign of an operator or a parenthesis. -/
def isSign : Token → Bool
  | .unary _ | .binary _ | .opening | .closing => true
  | _ => false

/-- The token can be made of the characters where the rest stands behind them: it
takes all characters that can belong to it. -/
inductive SpelledBefore (rest : List Char) : Token → List Char → Prop where
  | sign {token : Token} {c : Char} : token.isSign = true →
      Scan.operatorSigns.contains c = true → token.symbol = String.ofList [c] →
      SpelledBefore rest token [c]
  | name {token : Token} {lexeme : List Char} : token.isName = true →
      IsName (String.ofList lexeme) → token.symbol = String.ofList lexeme →
      (∀ c ∈ rest.head?, continuesName c = false) → SpelledBefore rest token lexeme
  | number {value : Float} {lexeme : List Char} : IsLongest IsNumeral lexeme (lexeme ++ rest) →
      rest.head? ≠ some '.' → Number.parse (String.ofList lexeme) = .ok value →
      SpelledBefore rest (.number value) lexeme
  | badNumber {lexeme : List Char} : IsBadNumber rest lexeme →
      SpelledBefore rest (.stray (String.ofList lexeme)) lexeme
  | foreign {c : Char} : isForeign c = true →
      SpelledBefore rest (.stray (String.ofList [c])) [c]

variable {token : Token} {lexeme rest : List Char}

/-- The characters of a token that is no number are its text. -/
theorem SpelledBefore.symbol (h : token.SpelledBefore rest lexeme)
    (hnumber : ∀ value, token ≠ .number value) : token.symbol = String.ofList lexeme := by
  cases h with
  | sign _ _ hsymbol => exact hsymbol
  | name _ _ hsymbol _ => exact hsymbol
  | number => exact absurd rfl (hnumber _)
  | badNumber | foreign => rfl

/-- The token of a sign is written with the sign. -/
theorem symbol_ofSign (sign : String) (previous : Option Token) :
    (ofSign sign previous).symbol = sign := by
  unfold ofSign
  split
  · next h => exact h.symm
  · split
    · next h => exact h.symm
    · split <;> rfl

/-- What is made of a sign is a parenthesis or an operator. -/
theorem isSign_ofSign (sign : String) (previous : Option Token) :
    (ofSign sign previous).isSign = true := by
  unfold ofSign
  split
  · rfl
  · split
    · rfl
    · split <;> rfl

/-- The token of a name is written with the name. -/
theorem symbol_ofName (name : String) (following : Option Char) :
    (ofName name following).symbol = name := by
  unfold ofName
  split
  · rfl
  · split <;> rfl

/-- What is made of a name is an argument, a constant or a call. -/
theorem isName_ofName (name : String) (following : Option Char) :
    (ofName name following).isName = true := by
  unfold ofName
  split
  · rfl
  · split <;> rfl

end Token

namespace Lexeme

variable {previous : Option Token} {text : List Char} {cut : Cut}

/-- Where a run of a class ends no character of it follows. -/
theorem head?_dropWhile (inClass : Char → Bool) (text : List Char) :
    ∀ c ∈ (text.dropWhile inClass).head?, inClass c = false := by
  intro c hc
  have hhead := List.head?_dropWhile_not inClass text
  rw [hc] at hhead
  exact hhead

/-- What is cut off a text that starts with a digit is a number, or a bad number if
a point follows the number. -/
theorem numberCut_cases {first : Char} {rest : List Char} (h : first.isDigit = true) :
    (∃ value lexeme after, numberCut (first :: rest) = ⟨.number value, lexeme, after⟩ ∧
      IsLongest IsNumeral lexeme (lexeme ++ after) ∧ after.head? ≠ some '.' ∧
      Number.parse (String.ofList lexeme) = .ok value) ∨
    ∃ lexeme after, numberCut (first :: rest) = ⟨.stray (String.ofList lexeme), lexeme, after⟩ ∧
      IsBadNumber after lexeme := by
  have hlongest := @isLongest_splitNumber first rest h
  have hsplit := splitNumber_append (first :: rest)
  unfold numberCut
  dsimp only
  split
  · next hpoint =>
    have hrest := @List.takeWhile_append_dropWhile _ isNumeric (splitNumber (first :: rest)).2
    refine .inr ⟨_, _, rfl, .intro ?_ ?_ (List.all_eq_true.mp List.all_takeWhile)
      (head?_dropWhile isNumeric _)⟩
    · rw [hrest, hsplit]
      exact hlongest
    · rw [List.head?_takeWhile, hpoint]
      rfl
  · next hpoint =>
    obtain ⟨value, hvalue⟩ := Number.exists_parse_of_isNumeral hlongest.isKind
    refine .inl ⟨value, _, _, ?_, ?_, hpoint, hvalue⟩
    · rw [Token.ofNumber, hvalue]
    · rw [hsplit]
      exact hlongest

/-- A number takes the longest numeral, and a bad literal all digits and points behind it
as well. -/
theorem spelledBefore_numberCut {first : Char} {rest : List Char} (h : first.isDigit = true) :
    (numberCut (first :: rest)).token.SpelledBefore (numberCut (first :: rest)).rest
      (numberCut (first :: rest)).lexeme := by
  rcases @numberCut_cases first rest h with ⟨value, lexeme, after, heq, hlongest, hpoint, hvalue⟩ |
    ⟨lexeme, after, heq, hbad⟩
  · rw [heq]
    exact .number hlongest hpoint hvalue
  · rw [heq]
    exact .badNumber hbad

/-- What is cut off first takes all characters that can belong to it, of whatever kind it
is. -/
theorem spelledBefore_of_firstCut? (h : firstCut? previous text = some cut)
    (hblank : ∀ c ∈ text.head?, isBlankAscii c = false) :
    cut.token.SpelledBefore cut.rest cut.lexeme := by
  cases cuts_of_firstCut? h with
  | sign hsign => exact .sign (Token.isSign_ofSign _ _) hsign (Token.symbol_ofSign _ _)
  | name _ hname =>
    exact .name (Token.isName_ofName _ _) (isName_of_startsName hname _) (Token.symbol_ofName _ _)
      (head?_dropWhile continuesName _)
  | number _ _ hdigit => exact spelledBefore_numberCut hdigit
  | @stray first rest hsign hname hdigit =>
    refine .foreign ?_
    rw [isForeign, hsign, hname, hdigit, hblank first rfl]
    rfl

end Lexeme

/-- A token as it stands in a text: the blanks in front of it and the characters
it is made of. -/
structure Piece where
  blanks : List Char
  lexeme : List Char
  located : Located

namespace Piece

/-- The characters of a piece. -/
def chars (piece : Piece) : List Char := piece.blanks ++ piece.lexeme

/-- The piece stands at a position of a text, with the rest of the text behind it. -/
structure StandsAt (position : Nat) (rest : List Char) (piece : Piece) : Prop where
  isBlank : ∀ c ∈ piece.blanks, isBlankAscii c = true
  ne_nil : piece.lexeme ≠ []
  position_eq : piece.located.position = position + piece.blanks.length
  symbol : (∀ value, piece.located.token ≠ .number value) →
    piece.located.token.symbol = String.ofList piece.lexeme
  spelled : piece.located.token.SpelledBefore rest piece.lexeme

end Piece

/-- The text that starts at a position falls into the pieces and the blanks behind
the last one, and each piece stands behind the ones before it. -/
structure IsLayout (start : Nat) (text : List Char) (pieces : List Piece)
    (trailing : List Char) : Prop where
  text_eq : pieces.flatMap Piece.chars ++ trailing = text
  isBlank : ∀ c ∈ trailing, isBlankAscii c = true
  standsAt : ∀ before piece after, pieces = before ++ piece :: after →
    piece.StandsAt (start + (before.flatMap Piece.chars).length)
      (after.flatMap Piece.chars ++ trailing)

/-- Nothing but blanks is a text without pieces. -/
theorem isLayout_nil {start : Nat} {trailing : List Char}
    (h : ∀ c ∈ trailing, isBlankAscii c = true) : IsLayout start trailing [] trailing :=
  ⟨rfl, h, by simp⟩

/-- A piece in front of a text that falls into pieces is one more piece. -/
theorem IsLayout.cons {start : Nat} {rest trailing : List Char} {piece : Piece}
    {pieces : List Piece} (h : IsLayout (start + piece.chars.length) rest pieces trailing)
    (hpiece : piece.StandsAt start rest) :
    IsLayout start (piece.chars ++ rest) (piece :: pieces) trailing := by
  refine ⟨?_, h.isBlank, ?_⟩
  · rw [List.flatMap_cons, List.append_assoc, h.text_eq]
  · intro before other after hsplit
    cases before with
    | nil =>
      obtain ⟨rfl, rfl⟩ := List.cons.inj hsplit
      rw [h.text_eq]
      exact hpiece
    | cons first before =>
      obtain ⟨rfl, hpieces⟩ := List.cons.inj hsplit
      have hother := h.standsAt before other after hpieces
      rwa [Nat.add_assoc, ← List.length_append, ← List.flatMap_cons] at hother

namespace Lexeme

/-- There is no token in front of the end of a text alone. -/
theorem eq_nil_of_firstCut?_eq_none {previous : Option Token} {text : List Char}
    (h : firstCut? previous text = none) : text = [] := by
  cases text with
  | nil => rfl
  | cons first rest =>
    obtain ⟨cut, hcut⟩ := exists_firstCut previous first rest
    rw [h] at hcut
    cases hcut

/-- The first token of a text that starts at a position, with the blanks in front
of it. -/
def firstPiece (start : Nat) (text : List Char) (cut : Cut) : Piece :=
  ⟨text.takeWhile isBlankAscii, cut.lexeme,
    ⟨start + (text.takeWhile isBlankAscii).length, cut.token⟩⟩

/-- The first piece, with its blanks, and the rest are the whole text. -/
theorem chars_firstPiece_append {previous : Option Token} {text : List Char} {cut : Cut}
    (start : Nat) (h : firstCut? previous (text.dropWhile isBlankAscii) = some cut) :
    (firstPiece start text cut).chars ++ cut.rest = text := by
  rw [Piece.chars, List.append_assoc]
  exact (congrArg _ (append_of_firstCut? h).1).trans List.takeWhile_append_dropWhile

/-- The first piece stands where its blanks end. -/
theorem standsAt_firstPiece {previous : Option Token} {text : List Char} {cut : Cut} (start : Nat)
    (h : firstCut? previous (text.dropWhile isBlankAscii) = some cut) :
    (firstPiece start text cut).StandsAt start cut.rest := by
  have hspelled := spelledBefore_of_firstCut? h (head?_dropWhile isBlankAscii text)
  exact ⟨List.all_eq_true.mp List.all_takeWhile, (append_of_firstCut? h).2, rfl, hspelled.symbol,
    hspelled⟩

/-- Every text falls into pieces that are its tokens. -/
theorem exists_isLayout (position : Nat) (previous : Option Token) (text : List Char) :
    ∃ pieces trailing, pieces.map Piece.located = locatedFrom position previous text ∧
      IsLayout position text pieces trailing := by
  induction position, previous, text using locatedFrom.induct with
  | case1 position previous text hnone =>
    refine ⟨[], text, (locatedFrom_of_none hnone).symm, isLayout_nil ?_⟩
    exact List.dropWhile_eq_nil_iff.mp (eq_nil_of_firstCut?_eq_none hnone)
  | case2 position previous text cut hcut start ih =>
    obtain ⟨pieces, trailing, hpieces, hlayout⟩ := ih
    refine ⟨firstPiece position text cut :: pieces, trailing, ?_, ?_⟩
    · rw [locatedFrom_of_cut hcut, List.map_cons, hpieces]
      rfl
    · rw [Nat.add_assoc, ← List.length_append] at hlayout
      have hcons := IsLayout.cons hlayout (standsAt_firstPiece position hcut)
      rwa [chars_firstPiece_append position hcut] at hcons

/-- Tokens stand one behind the other. -/
theorem pairwise_position_locatedFrom (start : Nat) (previous : Option Token) (text : List Char) :
    (locatedFrom start previous text).Pairwise (·.position < ·.position) ∧
      ∀ located ∈ locatedFrom start previous text, start ≤ located.position := by
  induction start, previous, text using locatedFrom.induct with
  | case1 start previous text hnone => simp [locatedFrom_of_none hnone]
  | case2 start previous text cut hcut first ih =>
    have hne := List.length_pos_iff.mpr (append_of_firstCut? hcut).2
    rw [locatedFrom_of_cut hcut, List.pairwise_cons, List.forall_mem_cons]
    refine ⟨⟨fun located hmem => ?_, ih.1⟩, Nat.le_add_right _ _, fun located hmem => ?_⟩
    · exact Nat.lt_of_lt_of_le (Nat.lt_add_of_pos_right hne) (ih.2 located hmem)
    · exact Nat.le_trans (by omega) (ih.2 located hmem)

end Lexeme

namespace Scan

/-- Asking for one token after the other, until there is none, gives the tokens,
and the cursor stands at the given place then. -/
inductive Yields : Option Token → Cursor → List Located → Cursor → Prop where
  | stop {previous : Option Token} {cursor after : Cursor} :
    (located previous).run cursor = (none, after) → Yields previous cursor [] after
  | next {previous : Option Token} {cursor middle after : Cursor} {first : Located}
      {more : List Located} : (located previous).run cursor = (some first, middle) →
    Yields (some first.token) middle more after → Yields previous cursor (first :: more) after

/-- Asking for tokens ends: from any cursor with the text in view, the tokens that are cut
from it are given, and the cursor goes to its end. -/
theorem exists_yields (start : Nat) (previous : Option Token) (text : List Char) :
    ∀ cursor : Cursor, cursor.view = ⟨start, [], text⟩ →
      ∃ after, Yields previous cursor (locatedFrom start previous text) after ∧
        after.view = ⟨start + text.length, [], []⟩ := by
  induction start, previous, text using locatedFrom.induct with
  | case1 start previous text hnone =>
    intro cursor hcursor
    have hblank := eq_nil_of_firstCut?_eq_none hnone
    obtain ⟨hanswer, hview⟩ := @gives_located_none previous text start hblank cursor hcursor
    refine ⟨_, ?_, hview⟩
    rw [locatedFrom_of_none hnone]
    exact .stop (Prod.ext hanswer rfl)
  | case2 start previous text cut hcut _ ih =>
    intro cursor hcursor
    obtain ⟨hanswer, hview⟩ := gives_located start hcut cursor hcursor
    obtain ⟨after, hyields, hafter⟩ := ih _ hview
    refine ⟨after, ?_, ?_⟩
    · rw [locatedFrom_of_cut hcut]
      exact .next (Prod.ext hanswer rfl) hyields
    · have hlength := congrArg List.length (chars_firstPiece_append start hcut)
      rw [List.length_append, Piece.chars, List.length_append] at hlength
      rw [hafter, ← hlength, ← Nat.add_assoc, ← Nat.add_assoc]
      rfl

end Scan

/-- A text is made of its tokens and blanks. Asking for tokens comes to an end at
the end of the text, and each token takes all characters that can belong to it. -/
theorem Lexed.ofText_isLayout (text : String) :
    (∃ after, Scan.Yields none (.ofText text.toList) (ofText text).located after ∧
        after.start = text.length) ∧
      (ofText text).finish = text.length ∧
      ∃ pieces trailing, pieces.map Piece.located = (ofText text).located ∧
        IsLayout 0 text.toList pieces trailing := by
  have hlexed : ofText text = ⟨locatedFrom 0 none text.toList, text.length⟩ :=
    ofChars_eq text.toList
  obtain ⟨after, hyields, hview⟩ := Scan.exists_yields 0 none text.toList (.ofText text.toList) rfl
  obtain ⟨pieces, trailing, hpieces, hlayout⟩ := exists_isLayout 0 none text.toList
  have hafter : after.start = 0 + text.length := congrArg View.start hview
  rw [hlexed]
  exact ⟨⟨after, hyields, hafter.trans (Nat.zero_add _)⟩, rfl, pieces, trailing, hpieces, hlayout⟩

/-- An exponent without digits and a point without digits are no part of a number;
a point behind a number spoils it. -/
example : (Lexed.ofText " 2e+x 12.5.3").located =
    [⟨1, .number 2⟩, ⟨2, .constant "e"⟩, ⟨3, .binary "+"⟩, ⟨4, .argument "x"⟩,
      ⟨6, .stray "12.5.3"⟩] := by
  decide +kernel

namespace Lexed

/-- At each position stands one token at most. -/
theorem eq_of_position_eq {text : String} {one other : Located} (h : one ∈ (ofText text).located)
    (h' : other ∈ (ofText text).located) (hposition : one.position = other.position) :
    one = other := by
  have hpairwise : (ofText text).located.Pairwise (·.position < ·.position) := by
    rw [ofText, ofChars_eq]
    exact (Lexeme.pairwise_position_locatedFrom 0 none text.toList).1
  have hnodup : ((ofText text).located.map Located.position).Nodup :=
    List.pairwise_map.mpr (hpairwise.imp Nat.ne_of_lt)
  exact List.inj_on_of_nodup_map hnodup h h' hposition

end Lexed

end FormulaCalculator
