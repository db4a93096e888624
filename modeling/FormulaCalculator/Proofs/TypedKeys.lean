import FormulaCalculator.Proofs.KeyItems
import FormulaCalculator.Proofs.KeyedCalls
import FormulaCalculator.Proofs.TypedTree
import FormulaCalculator.Proofs.WrittenText

/-!
# The keypad and the typed expression agree

What is entered with keys can also be typed: numbers without spaces in them, one
space between all other items, and a function directly before its parenthesis. The
two ways have lexers of their own. They differ in the token of a function, they have
different rules for a minus, and one reads a number from its keys while the other
looks for its end. Still both give the same expression or the same error.

Item by item the two lexers make the same token, up to calls. What has to be known of
the tokens before is whether they end an operand, which both lexers see alike.
-/

set_option autoImplicit false

namespace FormulaCalculator

open Token

namespace Keypad

variable {run term item text : String} {terms rest : List String} {previous : Option Token}
  {token : Token}

open Lexeme

/-- An item that is typed by itself: a number with digits and, if it has a point,
digits on both sides of it, one of the signs `+ - * / % ^`, a parenthesis, the
variable, or a constant that has a name of letters. -/
inductive IsItem : String → Prop where
  | number {item : String} {whole fraction : List Char} :
      Number.IsDecimal item.toList whole fraction → IsItem item
  | sign {op : Operator} : op ∈ Operator.signs → IsItem op.symbol
  | opening : IsItem "("
  | closing : IsItem ")"
  | argument : IsItem argumentName
  | constant {name : String} : name ∈ ["pi", "e"] → IsItem name

/-- The text that items are typed as. All items have a space between them, except
that a function stands directly before its parenthesis, which it cannot do without. -/
inductive TypedAs : List String → String → Prop where
  | nil : TypedAs [] ""
  | single {item : String} : IsItem item → TypedAs [item] item
  | spaced {item next text : String} {items : List String} : IsItem item →
      TypedAs (next :: items) text → TypedAs (item :: next :: items) (item ++ " " ++ text)
  | function {op : Operator} {text : String} {items : List String} : op ∈ Operator.functions →
      TypedAs ("(" :: items) text → TypedAs (op.symbol :: "(" :: items) (op.symbol ++ text)

/-- An item makes one token, both with keys and typed before some other text, and
the token ends an operand for both or for none. -/
structure ReadsAlike (item : String) (previous : Option Token) (after : List Char)
    (token : Token) : Prop where
  keyed : tokenOfItem item (previous.map asKey) = .ok token.asKey
  typed : tokensFrom previous (item.toList ++ after) = token :: tokensFrom (some token) after
  listed : token.isListed = true
  closes : token.asKey.closesOperand = token.endsOperand

variable {after : List Char}

/-- A number is the same token with keys and typed, if what follows ends it. -/
theorem readsAlike_number {whole fraction : List Char}
    (h : Number.IsDecimal item.toList whole fraction) (hafter : FollowsPart after) :
    ∃ token, ReadsAlike item previous after token := by
  have hparse := h.parse_ofList
  rw [String.ofList_toList] at hparse
  have hempty : item.isEmpty = false := by
    rw [String.isEmpty_eq_false_iff]
    exact fun hitem => h.ne_nil (String.toList_eq_nil_iff.mpr hitem)
  have hnumeric : isNumeric item = true := by
    rw [isNumeric, h.all_isNumeric, hempty]
    rfl
  have htyped := @tokensFrom_number previous after _ _ _ h hafter.stopsNumber
  rw [String.ofList_toList, Token.ofNumber, hparse] at htyped
  refine ⟨_, ?_, htyped, rfl, rfl⟩
  rw [tokenOfItem, if_pos hnumeric, numberOf, if_neg (Nat.not_lt.mpr h.count_point_le), hparse]
  rfl

/-- An item that is none of the special ones makes the token of its symbol. -/
theorem tokenOfItem_of_ofSymbol? (hnumeric : isNumeric item = false) (hopening : item ≠ "(")
    (hclosing : item ≠ ")") (hargument : item ≠ argumentName) (hconstant : item ∉ constantNames)
    (h : Token.ofSymbol? item previous = some token) : tokenOfItem item previous = .ok token := by
  simp [tokenOfItem, tokenOf, hnumeric, hopening, hclosing, hargument, hconstant, h]

/-- A minus is unary for both where no operand has ended for both. -/
theorem readsAlike_minus
    (hprevious : (previous.map asKey).any closesOperand = previous.any endsOperand) :
    ∃ token, ReadsAlike "-" previous after token := by
  have hsymbol : Token.ofSymbol? "-" (previous.map asKey) =
      if previous.any endsOperand = false then some (.unary "-") else some (.binary "-") := by
    rw [← hprevious]
    rfl
  have hkeyed {token : Token} (h : Token.ofSymbol? "-" (previous.map asKey) = some token) :
      tokenOfItem "-" (previous.map asKey) = .ok token :=
    tokenOfItem_of_ofSymbol? (by decide) (by decide) (by decide) (by decide) (by decide) h
  have htyped := @tokensFrom_sign previous after "-" '-' rfl rfl
  cases hends : previous.any endsOperand with
  | true =>
    have hsign : Token.ofSign "-" previous = .binary "-" := by simp [Token.ofSign, hends]
    rw [hends] at hsymbol
    rw [hsign] at htyped
    exact ⟨.binary "-", hkeyed hsymbol, htyped, rfl, rfl⟩
  | false =>
    have hsign : Token.ofSign "-" previous = .unary "-" := by simp [Token.ofSign, hends]
    rw [hends] at hsymbol
    rw [hsign] at htyped
    exact ⟨.unary "-", hkeyed hsymbol, htyped, rfl, rfl⟩

/-- A sign is the same operator with keys and typed, in front of an operand or between
two, since the token before it ends an operand for both or for none. -/
theorem readsAlike_sign {op : Operator} (h : op ∈ Operator.signs)
    (hprevious : (previous.map asKey).any closesOperand = previous.any endsOperand) :
    ∃ token, ReadsAlike op.symbol previous after token := by
  have hsymbols : ∀ op ∈ Operator.signs, op.symbol ∈ ["-", "+", "*", "/", "%", "^"] := by
    decide
  have hmem := hsymbols op h
  generalize op.symbol = sign at hmem
  simp only [List.mem_cons, List.not_mem_nil, or_false] at hmem
  rcases hmem with rfl | rfl | rfl | rfl | rfl | rfl
  · exact readsAlike_minus hprevious
  · exact ⟨.binary "+", rfl, tokensFrom_sign rfl rfl, rfl, rfl⟩
  · exact ⟨.binary "*", rfl, tokensFrom_sign rfl rfl, rfl, rfl⟩
  · exact ⟨.binary "/", rfl, tokensFrom_sign rfl rfl, rfl, rfl⟩
  · exact ⟨.binary "%", rfl, tokensFrom_sign rfl rfl, rfl, rfl⟩
  · exact ⟨.binary "^", rfl, tokensFrom_sign rfl rfl, rfl, rfl⟩

/-- A function is a unary operator with keys and a call before a parenthesis. -/
theorem readsAlike_function {op : Operator} (h : op ∈ Operator.functions)
    (hafter : after.head? = some '(') :
    ∃ token, ReadsAlike op.symbol previous after token := by
  have htable : ∀ op ∈ Operator.functions, isNumeric op.symbol = false ∧ op.symbol ≠ "(" ∧
      op.symbol ≠ ")" ∧ op.symbol ≠ argumentName ∧ op.symbol ∉ constantNames ∧
      Operator.find? op.symbol .binary = none ∧
      (Token.unary op.symbol).closesOperand = false := by
    decide
  obtain ⟨hnumeric, hopening, hclosing, hargument, hconstant, hbinary, hcloses⟩ := htable op h
  have hunary := Operator.find?_of_mem_functions h
  refine ⟨.call op.symbol, ?_, ?_, ?_, hcloses⟩
  · refine tokenOfItem_of_ofSymbol? hnumeric hopening hclosing hargument hconstant ?_
    rw [Token.ofSymbol?, hunary, hbinary]
    rfl
  · have hstop : ∀ c ∈ after.head?, Text.continuesName c = false := by
      intro c hc
      rw [hafter] at hc
      cases hc
      rfl
    rw [tokensFrom_name (Operator.isName_of_mem_functions h) hstop, hafter, Token.ofName,
      if_pos rfl]
  · exact Option.isSome_iff_exists.mpr ⟨op, hunary⟩

/-- A name that is no call is the same for what follows on it. -/
theorem tokensFrom_plainName {name : String} (hname : IsName name) (hafter : FollowsPart after) :
    tokensFrom previous (name.toList ++ after) =
      .ofName name none :: tokensFrom (some (.ofName name none)) after := by
  have htoken : Token.ofName name after.head? = Token.ofName name none := by
    rw [Token.ofName, if_neg hafter.head?_ne_opening]
    rfl
  rw [tokensFrom_name hname hafter.continuesName_eq_false, htoken]

/-- Every item that is typed by itself makes the same token both ways, kind by kind. -/
theorem IsItem.readsAlike (h : IsItem item)
    (hprevious : (previous.map asKey).any closesOperand = previous.any endsOperand)
    (hafter : FollowsPart after) : ∃ token, ReadsAlike item previous after token := by
  cases h with
  | number hdecimal => exact readsAlike_number hdecimal hafter
  | sign hsign => exact readsAlike_sign hsign hprevious
  | opening => exact ⟨.opening, rfl, tokensFrom_opening, rfl, rfl⟩
  | closing => exact ⟨.closing, rfl, tokensFrom_closing, rfl, rfl⟩
  | argument =>
    have hname : IsName argumentName := isName_of_letters (by decide) (by decide)
    exact ⟨.argument argumentName, rfl, tokensFrom_plainName hname hafter, rfl, rfl⟩
  | constant hmem =>
    simp only [List.mem_cons, List.not_mem_nil, or_false] at hmem
    rcases hmem with rfl | rfl
    · have hname : IsName "pi" := isName_of_letters (by decide) (by decide)
      exact ⟨.constant "pi", rfl, tokensFrom_plainName hname hafter, rfl, rfl⟩
    · have hname : IsName "e" := isName_of_letters (by decide) (by decide)
      exact ⟨.constant "e", rfl, tokensFrom_plainName hname hafter, rfl, rfl⟩

/-- An item that makes the same token both ways goes in front of items that do. -/
theorem ReadsAlike.cons {items : List String} (h : ReadsAlike item previous after token)
    (hrest : tokensOfItems (some token.asKey) items =
        .ok ((tokensFrom (some token) after).map asKey) ∧
      ∀ other ∈ tokensFrom (some token) after, other.isListed = true) :
    tokensOfItems (previous.map asKey) (item :: items) =
        .ok ((tokensFrom previous (item.toList ++ after)).map asKey) ∧
      ∀ other ∈ tokensFrom previous (item.toList ++ after), other.isListed = true := by
  obtain ⟨hkeyed, hlisted⟩ := hrest
  rw [h.typed]
  refine ⟨?_, List.forall_mem_cons.mpr ⟨h.listed, hlisted⟩⟩
  rw [tokensOfItems, h.keyed, ok_bind, hkeyed]
  rfl

/-- Where a parenthesis is the first item, it is typed first. -/
theorem TypedAs.head?_eq_opening {items : List String} (h : TypedAs ("(" :: items) text) :
    text.toList.head? = some '(' := by
  generalize hcons : "(" :: items = all at h
  cases h with
  | nil => cases hcons
  | single _ =>
    obtain ⟨rfl, -⟩ := List.cons.inj hcons
    rfl
  | spaced _ _ =>
    obtain ⟨rfl, -⟩ := List.cons.inj hcons
    simp
  | function hfunction _ =>
    have hne : ∀ op ∈ Operator.functions, "(" ≠ op.symbol := by
      decide
    exact absurd (List.cons.inj hcons).1 (hne _ hfunction)

/-- Items give the same tokens with keys and typed, but for the keys of calls, by
induction on the items. -/
theorem TypedAs.tokensOfItems_eq {items : List String} (h : TypedAs items text)
    (hprevious : (previous.map asKey).any closesOperand = previous.any endsOperand) :
    tokensOfItems (previous.map asKey) items =
        .ok ((tokensFrom previous text.toList).map asKey) ∧
      ∀ token ∈ tokensFrom previous text.toList, token.isListed = true := by
  induction h generalizing previous with
  | nil =>
    have hnone : tokensFrom previous "".toList = [] := tokensFrom_of_blank rfl
    rw [hnone]
    exact ⟨rfl, by simp⟩
  | single hitem =>
    obtain ⟨token, htoken⟩ :=
      @IsItem.readsAlike _ previous [] hitem hprevious (by simp [FollowsPart])
    have hnone : tokensFrom (some token) [] = [] := tokensFrom_of_blank rfl
    have hlast : tokensOfItems (some token.asKey) [] =
          .ok ((tokensFrom (some token) []).map asKey) ∧
        ∀ other ∈ tokensFrom (some token) [], other.isListed = true := by
      rw [hnone]
      exact ⟨rfl, by simp⟩
    simpa using htoken.cons hlast
  | @spaced item next text items hitem _ ih =>
    obtain ⟨token, htoken⟩ := @IsItem.readsAlike item previous (' ' :: text.toList) hitem hprevious
      (by simp [FollowsPart])
    have hrest := @ih (some token) htoken.closes
    rw [← tokensFrom_space] at hrest
    simpa using htoken.cons hrest
  | @function op text items hfunction hgroup ih =>
    obtain ⟨token, htoken⟩ :=
      @readsAlike_function previous text.toList op hfunction hgroup.head?_eq_opening
    rw [String.toList_append]
    exact htoken.cons (@ih (some token) htoken.closes)

/-- What can be entered with keys and typed is the same expression, with the same
value whatever names are bound, or it has the same error. -/
theorem ofTokens_tokens_of_typedAs (h : TypedAs (items terms) text) :
    (∃ error, (tokens terms >>= Postfix.ofTokens) = .error error ∧
      Postfix.ofText text = .error error) ∨
    ∃ keyed typed, (tokens terms >>= Postfix.ofTokens) = .ok keyed ∧
      Postfix.ofText text = .ok typed ∧ keyed.symbols = typed.symbols ∧
      ∀ bindings, keyed.evaluate bindings = typed.evaluate bindings := by
  obtain ⟨hkeyed, hlisted⟩ := @TypedAs.tokensOfItems_eq text none (items terms) h rfl
  have htokens : tokens terms = .ok ((Lexed.ofText text).tokens.map asKey) := by
    rw [tokens_eq_tokensOfItems, Lexed.tokens_ofText]
    exact hkeyed
  rw [← Lexed.tokens_ofText] at hlisted
  rw [htokens, ok_bind, Postfix.ofTokens_asKey hlisted, Postfix.ofText]
  cases Postfix.ofTokens (Lexed.ofText text).tokens with
  | error error => exact .inl ⟨error, rfl, rfl⟩
  | ok typed =>
    exact .inr ⟨typed.asKeys, typed, rfl, rfl, typed.symbols_asKeys, typed.evaluate_asKeys⟩

/-- The keys for 12.5 times the sine of `-x`, to the power of a constant. -/
def sineKeys : List String :=
  ["1", "2", ".", "5", "*", "sin", "(", "-", "x", ")", "^", "e"]

/-- The keys of a sine in a power are typed with a space between them, but for the
parenthesis of the call. -/
theorem typedAs_sineKeys : TypedAs (items sineKeys) "12.5 * sin( - x ) ^ e" := by
  have hitems : items sineKeys = ["12.5", "*", "sin", "(", "-", "x", ")", "^", "e"] := by
    decide
  have hdecimal : Number.IsDecimal "12.5".toList ['1', '2'] ['5'] :=
    @Number.IsDecimal.pointed ['1', '2'] ['5'] (by simp) (by simp) (by simp) (by simp)
  have hsign {op : Operator} (h : op ∈ Operator.signs) : IsItem op.symbol := .sign h
  have hproduct : IsItem "*" := @hsign ⟨"*", 3, .left, .binary⟩ (by decide)
  have hminus : IsItem "-" := @hsign ⟨"-", 2, .left, .binary⟩ (by decide)
  have hpower : IsItem "^" := @hsign ⟨"^", 5, .right, .binary⟩ (by decide)
  have hconstant : IsItem "e" := .constant (by decide)
  have hsine : (⟨"sin", 7, .right, .unary⟩ : Operator) ∈ Operator.functions := by
    decide
  rw [hitems]
  exact .spaced (.number hdecimal) (.spaced hproduct (.function hsine (.spaced .opening
    (.spaced hminus (.spaced .argument (.spaced .closing
      (.spaced hpower (.single hconstant))))))))

/-- An expression with a number of many keys, a function and a minus. -/
theorem ofTokens_tokens_of_typedAs_sineKeys :
    TypedAs (items sineKeys) "12.5 * sin( - x ) ^ e" ∧
    ((∃ error, (tokens sineKeys >>= Postfix.ofTokens) = .error error ∧
        Postfix.ofText "12.5 * sin( - x ) ^ e" = .error error) ∨
      ∃ keyed typed, (tokens sineKeys >>= Postfix.ofTokens) = .ok keyed ∧
        Postfix.ofText "12.5 * sin( - x ) ^ e" = .ok typed ∧ keyed.symbols = typed.symbols ∧
        ∀ bindings, keyed.evaluate bindings = typed.evaluate bindings) :=
  ⟨typedAs_sineKeys, ofTokens_tokens_of_typedAs typedAs_sineKeys⟩

end Keypad

end FormulaCalculator
