import FormulaCalculator.Formula.OfTree
import FormulaCalculator.Proofs.ReadingSoundness
import Mathlib.Control.Monad.Basic

/-!
# Why a text is no formula

A text that has a syntax tree can still be no formula, but only because of one of
its tokens: a name that formulas do not know, or the sign of a remainder. The other
errors are about nodes that no tree of a text has. A product that is only implied
causes none.
-/

set_option autoImplicit false

namespace FormulaCalculator

namespace Formula

/-- The names of the constants that formulas know. -/
def constantNames : List String := ["pi", "e"]

/-- The names of the functions that formulas know. -/
def functionNames : List String :=
  ["sqrt", "sin", "cos", "tan", "asin", "acos", "atan", "log", "exp", "abs"]

end Formula

/-- The token has no place in a formula, for the given reason. -/
inductive Token.Spoils : Token → FormulaError → Prop where
  | constant {name : String} : name ∉ Formula.constantNames →
      Spoils (.constant name) (.unknownSymbol name)
  | call {name : String} : name ∉ Formula.functionNames →
      Spoils (.call name) (.unknownSymbol name)
  | remainder : Spoils (.binary "%") (.malformedOperator "%")

/-- All names among the tokens are known to formulas, and there is no remainder. -/
structure OfFormula (tokens : List Token) : Prop where
  constant : ∀ name, .constant name ∈ tokens → name ∈ Formula.constantNames
  call : ∀ name, .call name ∈ tokens → name ∈ Formula.functionNames
  remainder : .binary "%" ∉ tokens

/-- The result of building a formula is what the tokens account for: there is an
error exactly if one of them spoils the formula, and it is the error of such a
token. -/
inductive BuiltFrom (tokens : List Token) : Except FormulaError (Formula Float) → Prop where
  | formula {f : Formula Float} : (∀ token ∈ tokens, ∀ e, ¬token.Spoils e) →
      BuiltFrom tokens (.ok f)
  | error {token : Token} {e : FormulaError} : token ∈ tokens → token.Spoils e →
      BuiltFrom tokens (.error e)

variable {ts us : List Token} {t : SyntaxTree} {name symbol : String} {op : Combination}
  {result left right : Except FormulaError (Formula Float)}

/-- The tokens are those of a formula exactly if none of them spoils it. -/
theorem ofFormula_iff : OfFormula ts ↔ ∀ token ∈ ts, ∀ e, ¬token.Spoils e := by
  constructor
  · rintro h token hmem e hspoils
    cases hspoils with
    | constant hname => exact hname (h.constant _ hmem)
    | call hname => exact hname (h.call _ hmem)
    | remainder => exact h.remainder hmem
  · intro h
    exact ⟨fun name hmem => Decidable.byContradiction fun hname => h _ hmem _ (.constant hname),
      fun name hmem => Decidable.byContradiction fun hname => h _ hmem _ (.call hname),
      fun hmem => h _ hmem _ .remainder⟩

namespace BuiltFrom

/-- Tokens that spoil nothing make no difference. -/
theorem mono (h : BuiltFrom ts result) (hsubset : ts ⊆ us)
    (hrest : ∀ token ∈ us, token ∈ ts ∨ ∀ e, ¬token.Spoils e) : BuiltFrom us result := by
  cases h with
  | formula hnone =>
    refine .formula fun token hmem => ?_
    rcases hrest token hmem with hold | hnew
    · exact hnone token hold
    · exact hnew
  | error hmem hspoils => exact .error (hsubset hmem) hspoils

/-- What a formula is made into afterwards has no errors of its own. -/
theorem map (h : BuiltFrom ts result) (g : Formula Float → Formula Float) :
    BuiltFrom ts (result.map g) := by
  cases h with
  | formula hnone => exact .formula hnone
  | error hmem hspoils => exact .error hmem hspoils

/-- A part in parentheses. -/
theorem group (h : BuiltFrom ts result) : BuiltFrom (.opening :: ts ++ [.closing]) result := by
  refine h.mono (fun token hmem => by simp [hmem]) fun token hmem => ?_
  simp only [List.cons_append, List.mem_cons, List.mem_append, List.not_mem_nil, or_false] at hmem
  rcases hmem with rfl | hmem | rfl
  · exact .inr nofun
  · exact .inl hmem
  · exact .inr nofun

/-- A minus in front of an operand is no error of its own. -/
theorem negated (h : BuiltFrom ts result) :
    BuiltFrom (.unary "-" :: ts) (Formula.ofUnary (.unary "-") result) := by
  refine (h.map Formula.negate).mono (List.subset_cons_self _ _) fun token hmem => ?_
  rcases List.mem_cons.mp hmem with rfl | hmem
  · exact .inr nofun
  · exact .inl hmem

/-- The name of a call is looked up before its argument is read. -/
theorem call (h : BuiltFrom ts result) :
    BuiltFrom (.call name :: ts) (Formula.ofUnary (.call name) result) := by
  cases hfunction : ElementaryFunction.ofName? name with
  | some function =>
    obtain rfl := ElementaryFunction.ofName?_eq_some_iff.mp hfunction
    have hknown (e : FormulaError) : ¬(Token.call function.name).Spoils e := by
      intro hspoils
      cases hspoils with
      | call hname => exact hname (by cases function <;> decide)
    simp only [Formula.ofUnary, hfunction]
    refine (h.map (.apply function)).mono (List.subset_cons_self _ _) fun token hmem => ?_
    rcases List.mem_cons.mp hmem with rfl | hmem
    · exact .inr hknown
    · exact .inl hmem
  | none =>
    simp only [Formula.ofUnary, hfunction]
    refine .error List.mem_cons_self (.call fun hmem => ?_)
    have hnone : Formula.functionNames.all (ElementaryFunction.ofName? · |>.isSome) = true := rfl
    have hsome := List.all_eq_true.mp hnone name hmem
    rw [hfunction] at hsome
    cases hsome

/-- A sign of formulas puts two parts together, whether it is written or implied. -/
theorem combine (hop : Combination.ofSign? symbol = some op) (h : BuiltFrom ts left)
    (h' : BuiltFrom us right) :
    BuiltFrom (ts ++ us) (Formula.ofBinary (.binary symbol) left right) := by
  cases h with
  | error hmem hspoils => exact .error (List.mem_append_left _ hmem) hspoils
  | formula hnone =>
    cases h' with
    | error hmem hspoils => exact .error (List.mem_append_right _ hmem) hspoils
    | formula hnone' =>
      simp only [Formula.ofBinary, ok_bind, hop]
      exact .formula (List.forall_mem_append.mpr ⟨hnone, hnone'⟩)

/-- Two operands with a sign between them are built from left to right, so the error of
the left one comes first. -/
theorem joined (hop : Combination.ofSign? symbol = some op) (h : BuiltFrom ts left)
    (h' : BuiltFrom us right) :
    BuiltFrom (ts ++ .binary symbol :: us) (Formula.ofBinary (.binary symbol) left right) := by
  have hsign (e : FormulaError) : ¬(Token.binary symbol).Spoils e := by
    intro hspoils
    cases hspoils
    cases hop
  refine (h.combine hop h').mono (fun token hmem => ?_) fun token hmem => ?_
  · rcases List.mem_append.mp hmem with hmem | hmem
    · exact List.mem_append_left _ hmem
    · exact List.mem_append_right _ (List.mem_cons_of_mem _ hmem)
  · rcases List.mem_append.mp hmem with hmem | hmem
    · exact .inl (List.mem_append_left _ hmem)
    · rcases List.mem_cons.mp hmem with rfl | hmem
      · exact .inr hsign
      · exact .inl (List.mem_append_right _ hmem)

/-- A remainder is no formula, and its operands are read before its sign. -/
theorem remainder (h : BuiltFrom ts left) (h' : BuiltFrom us right) :
    BuiltFrom (ts ++ .binary "%" :: us) (Formula.ofBinary (.binary "%") left right) := by
  cases h with
  | error hmem hspoils => exact .error (List.mem_append_left _ hmem) hspoils
  | formula _ =>
    cases h' with
    | error hmem hspoils =>
      exact .error (List.mem_append_right _ (List.mem_cons_of_mem _ hmem)) hspoils
    | formula _ => exact .error (List.mem_append_right _ List.mem_cons_self) .remainder

/-- A number or a name is built from its one token, and only a name can be unknown. -/
theorem leaf {token : Token} (h : token.isOperand = true) :
    BuiltFrom [token] (Formula.ofLeaf token) := by
  cases token with
  | number value => exact .formula (List.forall_mem_singleton.mpr nofun)
  | argument name => exact .formula (List.forall_mem_singleton.mpr nofun)
  | constant name =>
    have hknown (hmem : name ∈ Formula.constantNames) (e : FormulaError) :
        ¬(Token.constant name).Spoils e := by
      intro hspoils
      cases hspoils with
      | constant hname => exact hname hmem
    simp only [Formula.ofLeaf, Formula.namedConstant]
    split
    · exact .formula (List.forall_mem_singleton.mpr (hknown (by decide)))
    · exact .formula (List.forall_mem_singleton.mpr (hknown (by decide)))
    · next hpi he =>
      exact .error List.mem_cons_self (.constant (by simpa [Formula.constantNames] using ⟨hpi, he⟩))
  | _ => cases h

end BuiltFrom

/-- The formula of a tree, or the error, is what its tokens account for. -/
theorem Derives.builtFrom {category : Category} (h : Derives category ts t) :
    BuiltFrom ts (Formula.ofTree t) := by
  induction h with
  | product _ ih | factor _ ih | primary _ ih => exact ih
  | added _ hsign _ ih ih' =>
    cases hsign with
    | plus => exact ih.joined rfl ih'
    | minus => exact ih.joined rfl ih'
  | scaled _ hsign _ ih ih' =>
    cases hsign with
    | modulo => exact ih.remainder ih'
    | _ => exact ih.joined rfl ih'
  | juxtaposed _ _ _ ih ih' => exact ih.combine rfl ih'
  | negated _ ih => exact ih.negated
  | power _ _ ih ih' => exact ih.joined rfl ih'
  | leaf htoken => exact .leaf htoken
  | call _ ih => exact ih.group.call
  | group _ ih => exact ih.group

namespace Formula

/-- A text that cannot be read is no formula for this reason, and this reason is
given for no other text. A text that can be read is a formula exactly if all names
in it are known and there is no remainder. Otherwise the error is about one of its
tokens, an unknown name or the sign of a remainder. -/
theorem ofText_error_documented (text : String) :
    (∀ error, ofText text = .error (.unreadable error) ↔ SyntaxTree.ofText text = .error error) ∧
      ∀ t, SyntaxTree.ofText text = .ok t →
        ((∃ f, ofText text = .ok f) ↔ OfFormula (Lexed.ofText text).tokens) ∧
        ∀ e, ofText text = .error e → ∃ token ∈ (Lexed.ofText text).tokens, token.Spoils e := by
  cases hread : SyntaxTree.ofText text with
  | error error => simp [ofText, hread]
  | ok t =>
    have hbuilt := (SyntaxTree.derives_of_ofText hread).builtFrom
    have htext : ofText text = ofTree t := by simp only [ofText, hread]
    rw [htext, ofFormula_iff]
    generalize ofTree t = result at hbuilt
    cases hbuilt with
    | formula hnone =>
      refine ⟨by simp, fun _ _ => ⟨iff_of_true ⟨_, rfl⟩ hnone, ?_⟩⟩
      intro e he
      cases he
    | error hmem hspoils =>
      refine ⟨fun error => iff_of_false (fun he => ?_) (by simp), fun _ _ =>
        ⟨iff_of_false (by simp) fun hnone => hnone _ hmem _ hspoils, fun e he => ?_⟩⟩
      · cases he
        cases hspoils
      · cases he
        exact ⟨_, hmem, hspoils⟩

/-- The operands of `2%cosh(x)` are read before the sign of the remainder. -/
theorem ofText_error_documented_unknownCall :
    (∃ t, SyntaxTree.ofText "2%cosh(x)" = .ok t) ∧
      ofText "2%cosh(x)" = .error (.unknownSymbol "cosh") ∧
      ¬OfFormula (Lexed.ofText "2%cosh(x)").tokens ∧
      ∃ token ∈ (Lexed.ofText "2%cosh(x)").tokens, token.Spoils (.unknownSymbol "cosh") := by
  have hread : SyntaxTree.ofText "2%cosh(x)" = .ok (.binary (.binary "%") (.leaf (.number 2))
      (.unary (.call "cosh") (.leaf (.argument "x")))) := by
    decide +kernel
  have herror : ofText "2%cosh(x)" = .error (.unknownSymbol "cosh") := by
    rw [ofText, hread]
    rfl
  obtain ⟨hformula, hspoils⟩ := (ofText_error_documented "2%cosh(x)").2 _ hread
  refine ⟨⟨_, hread⟩, herror, fun h => ?_, hspoils _ herror⟩
  obtain ⟨f, hf⟩ := hformula.mpr h
  cases herror.symm.trans hf

end Formula

end FormulaCalculator
