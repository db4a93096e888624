import FormulaCalculator.Proofs.KeyedTree
import FormulaCalculator.Proofs.Regrouping

/-!
# The text of a tree and its tokens

A written tree is spelled by a list of tokens with the parentheses that are
written. A group that is no argument of a function has a mark in front, which is
written as nothing, so that no operator is taken for one that is called.

The text gives the tokens back. From left to right it can always be told which
token comes next, once it is known whether an operand has just ended: signs between
operands stand between blanks, a square follows its operand, and everything else
starts an operand. No word that starts an operand goes on as another one does.
-/

set_option autoImplicit false

namespace FormulaCalculator

open FormulaCalculator.Text

namespace Token

/-- The mark of a group that is no argument of a function. -/
def groupMark : Token := .call ""

/-- The characters that a token is written with among others. -/
def spelled : Token → List Char
  | .call _ => []
  | .binary sign => ' ' :: sign.toList ++ [' ']
  | token => token.symbol.toList

end Token

open Token

/-- The characters that tokens are written with. -/
def spell (tokens : List Token) : List Char := tokens.flatMap spelled

/-- Tokens are spelled one behind the other. -/
theorem spell_append (tokens tokens' : List Token) :
    spell (tokens ++ tokens') = spell tokens ++ spell tokens' :=
  List.flatMap_append

/-- The first token is spelled in front of the others. -/
theorem spell_cons (token : Token) (tokens : List Token) :
    spell (token :: tokens) = token.spelled ++ spell tokens :=
  List.flatMap_cons

namespace OperatorTree

/-- The tokens of an operand, in a marked group if it stands in parentheses. -/
def operandSpelling (written : Written) (precedence : Nat) (farSide : Bool)
    (tokens : List Token) : List Token :=
  if written.isEnclosed precedence farSide then groupMark :: .opening :: (tokens ++ [.closing])
  else tokens

/-- The tokens of a written tree. -/
def spelling : OperatorTree → List Token
  | .leaf token => [token]
  | .unary op token operand =>
    let operandTokens := operandSpelling operand.written op.precedence false operand.spelling
    if isNamed token.symbol then token :: .opening :: (operand.spelling ++ [.closing])
    else if op.followsOperand then operandTokens ++ [token]
    else token :: operandTokens
  | .binary op token left right =>
    operandSpelling left.written op.precedence (op.associativity ≠ .left) left.spelling ++
      .binary (typedSign token.symbol) ::
        operandSpelling right.written op.precedence (op.associativity ≠ .right) right.spelling

variable {tree : OperatorTree}

/-- A unary operator is spelled as a name with a marked argument, behind its operand or in
front of it. -/
theorem spelling_unary (op : Operator) (operand : OperatorTree) :
    (unary op (.unary op.symbol) operand).spelling =
      if isNamed op.symbol then .unary op.symbol :: .opening :: (operand.spelling ++ [.closing])
      else if op.followsOperand then
        operandSpelling operand.written op.precedence false operand.spelling ++ [.unary op.symbol]
      else
        .unary op.symbol ::
          operandSpelling operand.written op.precedence false operand.spelling := rfl

/-- An operand is put in parentheses in its tokens as in its text. -/
theorem spell_operandSpelling {written : Written} {tokens : List Token}
    (h : written.text.toList = spell tokens) (precedence : Nat) (farSide : Bool) :
    (written.asOperand precedence farSide).toList =
      spell (operandSpelling written precedence farSide tokens) := by
  have henclosed : written.asOperand precedence farSide =
      if written.isEnclosed precedence farSide then written.enclosed else written.text := rfl
  rw [henclosed, operandSpelling]
  split
  · rw [Written.enclosed, String.toList_append, String.toList_append, h, spell_cons, spell_cons,
      spell_append]
    rfl
  · exact h

/-- The tokens of a keyed tree spell its text. -/
theorem Keyed.toList_written (h : tree.Keyed) :
    tree.written.text.toList = spell tree.spelling := by
  induction h with
  | number | argument | constant => simp [written, spelling, spell, spelled, symbol]
  | @unary op operand hmem harity _ ih =>
    have hoperand := spell_operandSpelling ih op.precedence false
    have hwritten : (OperatorTree.unary op (.unary op.symbol) operand).written =
        writeUnary op op.symbol operand.written := by
      rw [written, Token.symbol, Operator.typedSign_of_unary op hmem harity]
    rw [hwritten, writeUnary, spelling_unary]
    cases isNamed op.symbol with
    | true =>
      simp only [if_true, String.toList_append, Written.enclosed, ih]
      simp [spell, spelled, symbol]
    | false =>
      simp only [Bool.false_eq_true, if_false]
      split
      · rw [String.toList_append, hoperand, spell_append]
        simp [spell, spelled, symbol]
      · rw [String.toList_append, hoperand, spell_cons]
        rfl
  | @binary op left right hmem harity _ _ ihl ihr =>
    have hleft := spell_operandSpelling ihl op.precedence (op.associativity ≠ .left)
    have hright := spell_operandSpelling ihr op.precedence (op.associativity ≠ .right)
    rw [written, writeBinary, spelling, spell_append, spell_cons, ← hleft, ← hright]
    simp [spelled]

end OperatorTree

namespace Spelling

/-- What a text starts with: tokens, whether an operand ends with them, and the rest
of the text. -/
structure Piece where
  tokens : List Token
  ended : Bool
  rest : List Char

/-- The operand that a word is. -/
def wordToken : List Char → Token
  | ['i', 'n', 'f'] => .number (Number.Binary.toFloat (.infinite false))
  | ['N', 'a', 'N'] => .number (Number.Binary.toFloat .notANumber)
  | ['x'] => .argument "x"
  | name => .constant (String.ofList name)

/-- The piece with a word in front, or a sign if there is none. A square behind an
operand starts with a letter. -/
def readWord : List Char → List Char → Option Piece
  | [], [] => none
  | [], '(' :: rest => some ⟨[groupMark, .opening], false, rest⟩
  | [], sign :: rest => some ⟨[.unary (String.ofList [sign])], false, rest⟩
  | name, '(' :: rest => some ⟨[.unary (String.ofList name), .opening], false, rest⟩
  | name, '²' :: rest => some ⟨[wordToken name.dropLast], true, 'x' :: '²' :: rest⟩
  | name, rest => some ⟨[wordToken name], true, rest⟩

/-- The piece with digits in front, or a word or a sign if there are none. -/
def readOperand : List Char → List Char → Option Piece
  | [], text => readWord (text.takeWhile isAlphabetic) (text.dropWhile isAlphabetic)
  | _, '/' :: 'x' :: rest => some ⟨[.unary "1/x"], false, rest⟩
  | digits, rest =>
    (Number.parse (String.ofList digits)).toOption.map fun value => ⟨[.number value], true, rest⟩

/-- The piece behind an operand. -/
def readBehind : List Char → Option Piece
  | ')' :: rest => some ⟨[.closing], true, rest⟩
  | 'x' :: '²' :: rest => some ⟨[.unary "x²"], true, rest⟩
  | ' ' :: sign :: ' ' :: rest => some ⟨[.binary (String.ofList [sign])], false, rest⟩
  | _ => none

/-- The first piece of a text, behind an operand or where one is expected. -/
def readPiece (ended : Bool) (text : List Char) : Option Piece :=
  if ended then readBehind text
  else readOperand (text.takeWhile isNumeric) (text.dropWhile isNumeric)

/-- Whether a name is made of letters. -/
def isWord (name : List Char) : Bool :=
  name.all isAlphabetic && name.head?.any fun first => !isNumeric first

/-- The signs between operands. -/
def joints : List String := ["+", "-", "*", "/", "%", "^"]

/-- Tokens that spell an expression, from a place on where an operand has just ended
or one is expected. -/
inductive Spells : Bool → List Token → Prop where
  | finished : Spells true []
  | number {value : Float} {rest : List Token} : Number.isSigned value = false →
      Spells true rest → Spells false (.number value :: rest)
  | argument {rest : List Token} : Spells true rest →
      Spells false (.argument argumentName :: rest)
  | constant {name : String} {rest : List Token} : name ∈ Keypad.constantNames →
      Spells true rest → Spells false (.constant name :: rest)
  | sign {symbol : String} {rest : List Token} : symbol ∈ ["-", "√", "1/x"] →
      Spells false rest → Spells false (.unary symbol :: rest)
  | called {symbol : String} {rest : List Token} : isWord symbol.toList = true →
      Spells false rest → Spells false (.unary symbol :: .opening :: rest)
  | group {rest : List Token} : Spells false rest →
      Spells false (groupMark :: .opening :: rest)
  | closing {rest : List Token} : Spells true rest → Spells true (.closing :: rest)
  | square {rest : List Token} : Spells true rest → Spells true (.unary "x²" :: rest)
  | joint {symbol : String} {rest : List Token} : symbol ∈ joints → Spells false rest →
      Spells true (.binary symbol :: rest)

variable {ended : Bool} {tokens : List Token} {name text : List Char}

/-- None of the signs that a text is written with is a letter. -/
theorem isAlphabetic_eq_false_of_sign :
    ∀ sign ∈ ['(', ')', ' ', '-', '√', '²'], isAlphabetic sign = false := by
  have hall : (['(', ')', ' ', '-', '√', '²'].all fun sign => !isAlphabetic sign) = true := by
    decide +kernel
  simpa using hall

/-- The words for the variable and for numbers that are none are made of letters. -/
theorem isWord_of_mem : ∀ word ∈ [['x'], ['i', 'n', 'f'], ['N', 'a', 'N']], isWord word = true := by
  have hall : ([['x'], ['i', 'n', 'f'], ['N', 'a', 'N']].all isWord) = true := by
    decide +kernel
  simpa using hall

/-- What can follow an operand. -/
inductive Stops : List Char → Prop where
  | finished : Stops []
  | closing {rest : List Char} : Stops (')' :: rest)
  | square {rest : List Char} : Stops ('x' :: '²' :: rest)
  | joint {rest : List Char} : Stops (' ' :: rest)

/-- Behind an operand stands nothing that could go on with it. -/
theorem Spells.stops (h : Spells ended tokens) (hended : ended = true) :
    Stops (spell tokens) := by
  cases h with
  | finished => exact .finished
  | closing => exact .closing
  | square => exact .square
  | joint => exact .joint
  | number | argument | constant | sign | called | group => cases hended

/-- What follows an operand is no digit and no point, so a number ends there. -/
theorem Stops.isNumeric_eq_false (h : Stops text) : ∀ c ∈ text.head?, isNumeric c = false := by
  cases h <;> simp <;> decide

/-- What follows an operand is no letter, so a word ends there, unless it is the square,
which starts with one. -/
theorem Stops.isAlphabetic_eq_false (h : Stops text) (hsquare : text.head? ≠ some 'x') :
    ∀ c ∈ text.head?, isAlphabetic c = false := by
  cases h with
  | finished => simp
  | closing | joint => simpa using isAlphabetic_eq_false_of_sign _ (by simp)
  | square => exact absurd rfl hsquare

/-- Digits are read as their number. -/
theorem readPiece_digits {digits : List Char} {value : Float} (hne : digits ≠ [])
    (hdigits : digits.all isNumeric = true)
    (hparse : Number.parse (String.ofList digits) = .ok value) (hrest : Stops text) :
    readPiece false (digits ++ text) = some ⟨[.number value], true, text⟩ := by
  obtain ⟨htake, hdrop⟩ :=
    takeWhile_append_stop (List.all_eq_true.mp hdigits) hrest.isNumeric_eq_false
  rw [readPiece, htake, hdrop]
  obtain ⟨first, digits, rfl⟩ := List.exists_cons_of_ne_nil hne
  have hslash : ∀ rest, text ≠ '/' :: 'x' :: rest := by
    rintro rest rfl
    cases hrest
  simp only [Bool.false_eq_true, if_false]
  rw [readOperand, hparse]
  · rfl
  · simp
  · exact hslash

/-- A word is read as one where no digits are in front of it. -/
theorem readPiece_word {text : List Char} (hname : isWord name = true)
    (htext : ∀ c ∈ text.head?, isAlphabetic c = false) :
    readPiece false (name ++ text) = readWord name text := by
  rw [isWord, Bool.and_eq_true] at hname
  obtain ⟨hletters, hfirst⟩ := hname
  obtain ⟨htake, hdrop⟩ := takeWhile_append_stop (List.all_eq_true.mp hletters) htext
  cases name with
  | nil => cases hfirst
  | cons first name =>
    have hnumeric : isNumeric first = false := by simpa using hfirst
    rw [readPiece, List.cons_append, List.takeWhile_cons_of_neg (by simp [hnumeric]),
      List.dropWhile_cons_of_neg (by simp [hnumeric])]
    exact congrArg₂ readWord htake hdrop

/-- An operand that is a word ends where it is followed by what follows an operand. -/
theorem readPiece_operand (hname : isWord name = true) (hrest : Stops text) :
    readPiece false (name ++ text) = some ⟨[wordToken name], true, text⟩ := by
  have hne : name ≠ [] := by
    rintro rfl
    cases hname
  have hletter : isAlphabetic 'x' = true := isAlphabetic_of_isAlpha rfl
  have hsuperscript : isAlphabetic '²' = false := isAlphabetic_eq_false_of_sign _ (by simp)
  have hstop := hrest.isAlphabetic_eq_false
  cases hrest with
  | @square rest =>
    have hword : isWord (name ++ ['x']) = true := by
      rw [isWord, Bool.and_eq_true] at hname ⊢
      rw [List.head?_append_of_ne_nil _ hne, List.all_append, hname.1]
      exact ⟨by simpa using hletter, hname.2⟩
    have hread := @readPiece_word (name ++ ['x']) ('²' :: rest) hword (by simpa using hsuperscript)
    rw [List.append_assoc, List.singleton_append] at hread
    rw [hread, readWord, List.dropLast_concat]
    simp
  | finished | closing | joint =>
    rw [readPiece_word hname (hstop (by simp)), readWord]
    all_goals simp [hne]

/-- A word in front of a parenthesis is the name of a function. -/
theorem readPiece_called (hname : isWord name = true) :
    readPiece false (name ++ '(' :: text) =
      some ⟨[.unary (String.ofList name), .opening], false, text⟩ := by
  have hparenthesis : isAlphabetic '(' = false := isAlphabetic_eq_false_of_sign _ (by simp)
  rw [readPiece_word hname (by simpa using hparenthesis), readWord]
  rintro rfl
  cases hname

/-- A sign in front of an operand is no digit and no letter. -/
theorem readPiece_sign {sign : Char} (hnumeric : isNumeric sign = false)
    (hletter : isAlphabetic sign = false) :
    readPiece false (sign :: text) = readWord [] (sign :: text) := by
  have hword (inClass : Char → Bool) (h : inClass sign = false) :
      (sign :: text).takeWhile inClass = [] ∧ (sign :: text).dropWhile inClass = sign :: text :=
    ⟨List.takeWhile_cons_of_neg (by simp [h]), List.dropWhile_cons_of_neg (by simp [h])⟩
  obtain ⟨htake, hdrop⟩ := hword isNumeric hnumeric
  obtain ⟨htake', hdrop'⟩ := hword isAlphabetic hletter
  rw [readPiece, htake, hdrop]
  exact congrArg₂ readWord htake' hdrop'

/-- A number without a sign is read again, an infinity and what is no number too. -/
theorem readPiece_number {value : Float} (hvalue : Number.isSigned value = false)
    (hrest : Stops text) :
    readPiece false (Number.shortestText value ++ text) = some ⟨[.number value], true, text⟩ := by
  have hreturn := Number.Binary.toFloat_ofFloat value
  unfold Number.isSigned at hvalue
  cases hcases : Number.Binary.ofFloat value with
  | notANumber =>
    rw [hcases] at hreturn
    rw [Number.shortestText, hcases, ← hreturn]
    exact readPiece_operand (isWord_of_mem ['N', 'a', 'N'] (by simp)) hrest
  | infinite negative =>
    rw [hcases] at hvalue hreturn
    cases hvalue
    rw [Number.shortestText, hcases, ← hreturn]
    exact readPiece_operand (isWord_of_mem ['i', 'n', 'f'] (by simp)) hrest
  | finite negative m e =>
    rw [hcases] at hvalue
    cases hvalue
    obtain ⟨whole, fraction, hdecimal, hparse⟩ :=
      Number.Unsigned.exists_isDecimal ⟨m, e, hcases⟩
    exact readPiece_digits hdecimal.ne_nil hdecimal.all_isNumeric hparse hrest

/-- The name of a constant is read as the constant. -/
theorem wordToken_of_mem : ∀ name ∈ Keypad.constantNames,
    isWord name.toList = true ∧ wordToken name.toList = .constant name := by
  decide +kernel

/-- The first piece of what is spelled is read, and the rest is spelled too. -/
theorem Spells.exists_readPiece (h : Spells ended tokens) :
    ended = true ∧ tokens = [] ∨ ∃ front rest next, tokens = front ++ rest ∧ front ≠ [] ∧
      Spells next rest ∧ readPiece ended (spell tokens) = some ⟨front, next, spell rest⟩ := by
  cases h with
  | finished => exact .inl ⟨rfl, rfl⟩
  | @number value rest hvalue hrest =>
    refine .inr ⟨[.number value], rest, true, rfl, by simp, hrest, ?_⟩
    have hspelled : (Token.number value).spelled = Number.shortestText value :=
      String.toList_ofList
    rw [spell_cons, hspelled]
    exact readPiece_number hvalue (hrest.stops rfl)
  | @argument rest hrest =>
    exact .inr ⟨[.argument argumentName], rest, true, rfl, by simp, hrest,
      readPiece_operand (isWord_of_mem ['x'] (by simp)) (hrest.stops rfl)⟩
  | @constant name rest hname hrest =>
    obtain ⟨hword, htoken⟩ := wordToken_of_mem name hname
    refine .inr ⟨[.constant name], rest, true, rfl, by simp, hrest, ?_⟩
    have hread := readPiece_operand hword (hrest.stops rfl)
    rw [htoken] at hread
    exact hread
  | @sign symbol rest hsymbol hrest =>
    refine .inr ⟨[.unary symbol], rest, false, rfl, by simp, hrest, ?_⟩
    simp only [List.mem_cons, List.not_mem_nil, or_false] at hsymbol
    -- The sign of the reciprocal is longer than a character and is read as a whole.
    rcases hsymbol with rfl | rfl | rfl
    · exact readPiece_sign (by decide) (isAlphabetic_eq_false_of_sign '-' (by simp))
    · exact readPiece_sign (by decide) (isAlphabetic_eq_false_of_sign '√' (by simp))
    · rfl
  | @called symbol rest hsymbol hrest =>
    refine .inr ⟨[.unary symbol, .opening], rest, false, rfl, by simp, hrest, ?_⟩
    have hread := @readPiece_called _ (spell rest) hsymbol
    rw [String.ofList_toList] at hread
    exact hread
  | @group rest hrest =>
    exact .inr ⟨[groupMark, .opening], rest, false, rfl, by simp, hrest,
      readPiece_sign (by decide) (isAlphabetic_eq_false_of_sign '(' (by simp))⟩
  | @closing rest hrest => exact .inr ⟨[.closing], rest, true, rfl, by simp, hrest, rfl⟩
  | @square rest hrest => exact .inr ⟨[.unary "x²"], rest, true, rfl, by simp, hrest, rfl⟩
  | @joint symbol rest hsymbol hrest =>
    refine .inr ⟨[.binary symbol], rest, false, rfl, by simp, hrest, ?_⟩
    simp only [joints, List.mem_cons, List.not_mem_nil, or_false] at hsymbol
    rcases hsymbol with rfl | rfl | rfl | rfl | rfl | rfl <;> rfl

/-- A text is spelled by one list of tokens. -/
theorem Spells.eq_of_spell_eq {tokens' : List Token} (h : Spells ended tokens)
    (h' : Spells ended tokens') (htext : spell tokens = spell tokens') : tokens = tokens' := by
  -- By length, since the first piece can have two tokens.
  induction hlength : tokens.length using Nat.strong_induction_on
    generalizing ended tokens tokens' with
  | h n ih =>
    rcases h.exists_readPiece with ⟨rfl, rfl⟩ | ⟨front, rest, next, rfl, hne, hrest, hread⟩
    · rcases h'.exists_readPiece with ⟨-, rfl⟩ | ⟨_, _, _, _, _, _, hread'⟩
      · rfl
      · rw [← htext] at hread'
        cases hread'
    · rcases h'.exists_readPiece with ⟨rfl, rfl⟩ | ⟨front', rest', next', rfl, -, hrest', hread'⟩
      · rw [htext] at hread
        cases hread
      · rw [htext, hread'] at hread
        simp only [Option.some.injEq, Piece.mk.injEq] at hread
        obtain ⟨rfl, rfl, hspell⟩ := hread
        have hshorter : rest.length < n := by
          have hpos := List.length_pos_iff.mpr hne
          rw [← hlength, List.length_append]
          omega
        rw [ih rest.length hshorter hrest hrest' hspell.symm rfl]

end Spelling

namespace OperatorTree

open Spelling

variable {tree : OperatorTree}

/-- The operators that are written as names have words for symbols. -/
theorem isWord_of_isNamed {op : Operator} (hmem : op ∈ Operator.table)
    (hnamed : isNamed op.symbol = true) : isWord op.symbol.toList = true := by
  have hfirst : ∀ op ∈ Operator.table, Operator.square.precedence < op.precedence →
      (op.symbol.toList.head?.any fun first => !isNumeric first) = true := by
    decide
  have hmore := hnamed
  rw [Operator.isNamed_eq op hmem, decide_eq_true_eq] at hmore
  rw [isWord, Bool.and_eq_true]
  exact ⟨hnamed, hfirst op hmem hmore⟩

/-- The signs in front of an operand are those of the minus, the root and the
reciprocal. -/
theorem mem_signs_of_not_isNamed {op : Operator} (hmem : op ∈ Operator.table)
    (harity : op.arity = .unary) (hnamed : isNamed op.symbol = false)
    (hfront : op.followsOperand = false) : op.symbol ∈ ["-", "√", "1/x"] := by
  have hsigns : ∀ op ∈ Operator.table, op.arity = .unary →
      ¬Operator.square.precedence < op.precedence → op.followsOperand = false →
        op.symbol ∈ ["-", "√", "1/x"] := by
    decide
  rw [Operator.isNamed_eq op hmem, decide_eq_false_iff_not] at hnamed
  exact hsigns op hmem harity hnamed hfront

/-- What is typed for a binary operator is a sign between operands. -/
theorem typedSign_mem_joints :
    ∀ op ∈ Operator.table, op.arity = .binary → typedSign op.symbol ∈ joints := by
  decide

/-- An operand spells an expression where one is expected, with or without its
parentheses. -/
theorem spells_operandSpelling {tokens rest : List Token} (written : Written) (precedence : Nat)
    (farSide : Bool) (h : ∀ rest, Spells true rest → Spells false (tokens ++ rest))
    (hrest : Spells true rest) :
    Spells false (operandSpelling written precedence farSide tokens ++ rest) := by
  rw [operandSpelling]
  split
  · have hgroup : Spells false (groupMark :: .opening :: (tokens ++ .closing :: rest)) :=
      .group (h _ (.closing hrest))
    simpa using hgroup
  · exact h rest hrest

/-- The tokens of a keyed tree spell an operand, whatever follows it. -/
theorem Keyed.spells (h : tree.Keyed) {rest : List Token} (hrest : Spells true rest) :
    Spells false (tree.spelling ++ rest) := by
  induction h generalizing rest with
  | number hvalue => exact .number hvalue hrest
  | argument => exact .argument hrest
  | constant hname => exact .constant hname hrest
  | @unary op operand hmem harity _ ih =>
    rw [spelling_unary]
    cases hnamed : isNamed op.symbol with
    | true =>
      have hcalled : Spells false
          (.unary op.symbol :: .opening :: (operand.spelling ++ .closing :: rest)) :=
        .called (isWord_of_isNamed hmem hnamed) (ih (.closing hrest))
      simpa using hcalled
    | false =>
      simp only [Bool.false_eq_true, if_false]
      split
      · next hfollows =>
        obtain rfl := Operator.eq_square op hmem hfollows
        rw [List.append_assoc, List.singleton_append]
        exact spells_operandSpelling _ _ _ (fun _ => ih) (.square hrest)
      · next hfront =>
        rw [Bool.not_eq_true] at hfront
        exact .sign (mem_signs_of_not_isNamed hmem harity hnamed hfront)
          (spells_operandSpelling _ _ _ (fun _ => ih) hrest)
  | @binary op left right hmem harity _ _ ihl ihr =>
    rw [spelling, List.append_assoc, List.cons_append]
    exact spells_operandSpelling _ _ _ (fun _ => ihl)
      (.joint (typedSign_mem_joints op hmem harity)
        (spells_operandSpelling _ _ _ (fun _ => ihr) hrest))

/-- Keyed trees with the same text have the same tokens. -/
theorem Keyed.spelling_eq {tree' : OperatorTree} (h : tree.Keyed) (h' : tree'.Keyed)
    (htext : tree.written.text = tree'.written.text) : tree.spelling = tree'.spelling := by
  have hspells := h.spells .finished
  have hspells' := h'.spells .finished
  rw [List.append_nil] at hspells hspells'
  refine hspells.eq_of_spell_eq hspells' ?_
  rw [← h.toList_written, ← h'.toList_written, htext]

end OperatorTree

end FormulaCalculator
