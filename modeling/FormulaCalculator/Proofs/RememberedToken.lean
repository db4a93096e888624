import FormulaCalculator.Proofs.ReadingSoundness
import FormulaCalculator.Proofs.TokenPieces
import Mathlib.Data.List.DropRight

/-!
# The token that the lexer remembers

Between two tokens the lexer knows nothing of what it has cut off but the last
token. Where this token ends an operand a minus that comes next subtracts, and
anywhere else it is unary. So the tokens of a text cannot stand behind each other
in any order: a unary sign stands where no operand has ended, and the name of a
call in front of a parenthesis.
-/

set_option autoImplicit false

namespace FormulaCalculator

open FormulaCalculator.Text FormulaCalculator.Lexeme

namespace Lexeme

variable {start : Nat} {previous : Option Token} {text : List Char}
  {before after : List Located}

/-- Blanks in front of a text only move it. -/
theorem locatedFrom_dropWhile (start : Nat) (previous : Option Token) (text : List Char) :
    locatedFrom (start + (text.takeWhile isBlankAscii).length) previous
      (text.dropWhile isBlankAscii) = locatedFrom start previous text := by
  have hdrop : (text.dropWhile isBlankAscii).dropWhile isBlankAscii =
      text.dropWhile isBlankAscii := List.dropWhile_idempotent _ text
  have htake : (text.dropWhile isBlankAscii).takeWhile isBlankAscii = [] := by
    have hsplit := List.takeWhile_append_dropWhile (p := isBlankAscii)
      (l := text.dropWhile isBlankAscii)
    rw [hdrop] at hsplit
    exact List.append_left_eq_self.mp hsplit
  cases hcut : firstCut? previous (text.dropWhile isBlankAscii) with
  | none =>
    rw [locatedFrom_of_none hcut]
    apply locatedFrom_of_none
    rw [hdrop, hcut]
  | some cut =>
    have hcut' : firstCut? previous ((text.dropWhile isBlankAscii).dropWhile isBlankAscii) =
        some cut := by
      rw [hdrop, hcut]
    rw [locatedFrom_of_cut hcut, locatedFrom_of_cut hcut', htake]
    rfl

/-- The token that is remembered behind tokens, where one is remembered before them. -/
def remembered (previous : Option Token) (before : List Located) : Option Token :=
  (before.getLast?.map Located.token).or previous

/-- What is remembered in front of a token is replaced by it. -/
theorem remembered_cons (first : Located) :
    remembered previous (first :: before) = remembered (some first.token) before := by
  unfold remembered
  rw [List.getLast?_cons]
  cases before.getLast? with
  | none => rfl
  | some last => rfl

end Lexeme

namespace Scan

variable {start : Nat} {previous : Option Token} {text : List Char} {cursor : Cursor}
  {next : Located} {before after : List Located} {symbol : String}

/-- When the first tokens have been cut off, the lexer stands before the others, and
remembers the last one that it has cut off. -/
theorem exists_gives_tokens (h : locatedFrom start previous text = before ++ after) :
    ∃ position rest,
      (tokens before.length previous).Gives ⟨start, [], text⟩ before ⟨position, [], rest⟩ ∧
        locatedFrom position (remembered previous before) rest = after := by
  induction before generalizing start previous text with
  | nil =>
    refine ⟨_, _, (gives_ignoreBlanks _).bind (gives_pure _ _), ?_⟩
    exact (locatedFrom_dropWhile start previous text).trans h
  | cons first before ih =>
    cases hcut : firstCut? previous (text.dropWhile isBlankAscii) with
    | none =>
      rw [locatedFrom_of_none hcut] at h
      cases h
    | some cut =>
      rw [locatedFrom_of_cut hcut] at h
      obtain ⟨rfl, hrest⟩ := List.cons.inj h
      obtain ⟨position, rest, hgives, hafter⟩ := ih hrest
      refine ⟨position, rest, ?_, ?_⟩
      · exact (gives_located start hcut).bind (hgives.bind (gives_pure _ _))
      · rw [remembered_cons]
        exact hafter

/-- Between two tokens a minus is read as a unary or as a binary one, and the token
that is remembered decides. -/
theorem answer_located_minus {rest : List Char} (hlexeme : cursor.lexeme = [])
    (hahead : cursor.ahead.dropWhile isBlankAscii = '-' :: rest) :
    ((located previous).run cursor).1 =
      some ⟨cursor.start + (cursor.ahead.takeWhile isBlankAscii).length,
        if previous.any Token.endsOperand then .binary "-" else .unary "-"⟩ := by
  have hview : cursor.view = ⟨cursor.start, [], cursor.ahead⟩ := by
    rw [Cursor.view, hlexeme]
  have hcut : firstCut? previous (cursor.ahead.dropWhile isBlankAscii) =
      some ⟨.ofSign "-" previous, ['-'], rest⟩ := by
    rw [hahead]
    rfl
  have htoken : Token.ofSign "-" previous =
      if previous.any Token.endsOperand then .binary "-" else .unary "-" := by
    cases hended : previous.any Token.endsOperand with
    | false => simp [Token.ofSign, hended]
    | true => simp [Token.ofSign, hended]
  rw [(gives_located cursor.start hcut cursor hview).1, htoken]

end Scan

namespace Token

variable {previous : Option Token} {symbol : String}

/-- A sign is one in front of an operand only where no operand has ended. -/
theorem ended_of_ofSign_eq_unary {sign : String} (h : ofSign sign previous = .unary symbol) :
    previous.any endsOperand = false := by
  unfold ofSign at h
  split at h
  · cases h
  · split at h
    · cases h
    · split at h
      · next hminus =>
        rw [Bool.and_eq_true, Bool.not_eq_true'] at hminus
        exact hminus.2
      · cases h

/-- A unary sign is cut off only where no operand has ended. -/
theorem ended_of_firstCut? {text : List Char} {cut : Cut} (h : firstCut? previous text = some cut)
    (hunary : cut.token = .unary symbol) : previous.any endsOperand = false := by
  cases cuts_of_firstCut? h with
  | sign _ => exact ended_of_ofSign_eq_unary hunary
  | @name first rest _ _ =>
    have hname := isName_ofName (String.ofList (first :: rest.takeWhile continuesName))
      (rest.dropWhile continuesName).head?
    dsimp only at hunary
    rw [hunary] at hname
    cases hname
  | @number first rest _ _ hdigit =>
    rcases @numberCut_cases first rest hdigit with
      ⟨value, lexeme, behind, heq, -⟩ | ⟨lexeme, behind, heq, -⟩
    · rw [heq] at hunary
      cases hunary
    · rw [heq] at hunary
      cases hunary
  | stray _ _ _ => cases hunary

/-- What the lexer makes sure of where a token comes behind the one that it remembers. -/
structure CanFollow (previous : Option Token) (token : Token) : Prop where
  unary : ∀ symbol, token = .unary symbol → previous.any endsOperand = false ∧ symbol = "-"
  binary : ∀ symbol, token = .binary symbol → ∃ op, token.operator? = some op
  call : ∀ name, previous = some (.call name) → token = .opening

end Token

namespace Lexed

variable {text : String} {next : Located} {before after : List Located}

/-- When the first tokens of a text have been cut off, the lexer goes on to cut off the
others, and remembers the last one. -/
theorem exists_tokens_of_located (h : (ofText text).located = before ++ after) :
    ∃ cursor finish, (Scan.tokens before.length none).run (.ofText text.toList) =
        (before, cursor) ∧ cursor.lexeme = [] ∧
      Scan.Yields (before.getLast?.map Located.token) cursor after finish := by
  have hlocated : locatedFrom 0 none text.toList = before ++ after := by
    rw [← h, ofText, ofChars_eq]
  obtain ⟨position, rest, hgives, hafter⟩ := Scan.exists_gives_tokens hlocated
  obtain ⟨hanswer, hview⟩ := hgives (.ofText text.toList) rfl
  obtain ⟨finish, hyields, -⟩ :=
    Scan.exists_yields position (remembered none before) rest _ hview
  refine ⟨_, finish, Prod.ext hanswer rfl, congrArg View.lexeme hview, ?_⟩
  rw [hafter, remembered, Option.or_none] at hyields
  exact hyields

/-- Each token of a text can follow the one before it. -/
theorem canFollow_of_located (h : (ofText text).located = before ++ next :: after) :
    Token.CanFollow (before.getLast?.map Located.token) next.token := by
  have htyped := SyntaxTree.typed_tokens_ofText text
  have htokens : (ofText text).tokens =
      before.map Located.token ++ next.token :: after.map Located.token := by
    rw [tokens, h, List.map_append, List.map_cons]
  refine ⟨?_, ?_, ?_⟩
  -- What the lexer remembers decides on the arity of a minus, so the cut itself is looked at.
  · intro symbol hunary
    have hsymbol : symbol = "-" := by
      apply htyped.unary symbol
      rw [htokens, ← hunary]
      simp
    have hlocated : locatedFrom 0 none text.toList = before ++ next :: after := by
      rw [← h, ofText, ofChars_eq]
    obtain ⟨position, rest, -, hafter⟩ := Scan.exists_gives_tokens hlocated
    cases hcut : firstCut? (remembered none before) (rest.dropWhile isBlankAscii) with
    | none =>
      rw [locatedFrom_of_none hcut] at hafter
      cases hafter
    | some cut =>
      rw [locatedFrom_of_cut hcut] at hafter
      obtain ⟨rfl, -⟩ := List.cons.inj hafter
      have hended := Token.ended_of_firstCut? hcut hunary
      rw [remembered, Option.or_none] at hended
      exact ⟨hended, hsymbol⟩
  · intro symbol hbinary
    have hmem : .binary symbol ∈ (ofText text).tokens := by
      rw [htokens, ← hbinary]
      simp
    rw [hbinary]
    rcases htyped.binary symbol hmem with hadds | hscales | rfl
    · obtain ⟨op, hop, -⟩ := hadds.operator?
      exact ⟨op, hop⟩
    · obtain ⟨op, hop, -⟩ := hscales.operator?
      exact ⟨op, hop⟩
    · exact ⟨_, Token.operator?_caret⟩
  · intro name hcall
    obtain ⟨last, hlast, hname⟩ := Option.map_eq_some_iff.mp hcall
    obtain ⟨front, rfl⟩ := List.getLast?_eq_some_iff.mp hlast
    have hopening := htyped.call (front.map Located.token) name
      (next.token :: after.map Located.token) (by rw [htokens, ← hname]; simp)
    exact Option.some.inj hopening

end Lexed

end FormulaCalculator
