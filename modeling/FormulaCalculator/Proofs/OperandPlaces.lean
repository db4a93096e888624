import FormulaCalculator.Proofs.KeypadErrors

/-!
# Places for operands

Tokens read from left to right tell at every place whether an operand has just
ended there. Two things can be out of place: an operand that starts where another
one has just ended, and a token behind which an operand has to end, or the end of
all tokens, where none has ended. An expression is well-formed exactly if its
parentheses are balanced and nothing is out of place.

An evaluation only counts operands and binary operators. It knows how many more
places are crowded than are empty, and so it refuses every expression in which only
one of the two happens. It may take one in which both happen equally often.
-/

set_option autoImplicit false

namespace FormulaCalculator

namespace Token

/-- Whether an operand can start with a token. -/
def startsOperand : Token → Bool
  | .number _ | .argument _ | .constant _ | .opening | .call _ => true
  | .unary symbol => !(Token.unary symbol).followsOperand
  | _ => false

/-- Whether an operand can end with a token. A call never ends one, whatever its
name is. -/
def completesOperand : Token → Bool
  | .unary symbol => (Token.unary symbol).followsOperand
  | token => token.endsOperand

/-- The place of a token in an expression: whether an operand starts with it, and
whether one ends with it. -/
inductive Place : Token → Bool → Bool → Prop where
  | leaf {token : Token} : token.isOperand = true → Place token true true
  | opening : Place .opening true false
  | leading {token : Token} {op : Operator} : token.Leads op → Place token true false
  | joining {token : Token} {op : Operator} : token.Joins op → Place token false false
  | trailing {token : Token} {op : Operator} : token.Trails op → Place token false true
  | closing : Place .closing false true

variable {token : Token} {starts completes : Bool}

/-- Whether a unary token stands behind its operand is told by its operator. -/
theorem followsOperand_unary {symbol : String} {op : Operator}
    (h : Operator.find? symbol .unary = some op) :
    (Token.unary symbol).followsOperand = op.followsOperand := by
  simp [followsOperand, operator?, h]

/-- The place of a token tells whether an operand starts with it and whether one ends with
it. -/
theorem Place.eq (h : Place token starts completes) :
    token.startsOperand = starts ∧ token.completesOperand = completes := by
  cases h with
  | leaf hleaf => cases token <;> first | exact ⟨rfl, rfl⟩ | cases hleaf
  | opening | closing => exact ⟨rfl, rfl⟩
  | leading hleads =>
    cases hleads with
    | unary hfind hfollows =>
      simp [startsOperand, completesOperand, followsOperand_unary hfind, hfollows]
    | call _ => exact ⟨rfl, rfl⟩
  | joining hjoins =>
    cases hjoins with
    | binary _ => exact ⟨rfl, rfl⟩
  | trailing htrails =>
    cases htrails with
    | unary hfind hfollows =>
      simp [startsOperand, completesOperand, followsOperand_unary hfind, hfollows]

/-- An operand is no parenthesis. -/
theorem isParenthesis_of_isOperand (h : token.isOperand = true) :
    token.isParenthesis = false := by
  cases token <;> first | rfl | cases h

/-- An operator in front of its operand is no parenthesis. -/
theorem Leads.isParenthesis {op : Operator} (h : token.Leads op) :
    token.isParenthesis = false := by
  cases h <;> rfl

/-- An operator between its operands is no parenthesis. -/
theorem Joins.isParenthesis {op : Operator} (h : token.Joins op) :
    token.isParenthesis = false := by
  cases h
  rfl

/-- An operator behind its operand is no parenthesis. -/
theorem Trails.isParenthesis {op : Operator} (h : token.Trails op) :
    token.isParenthesis = false := by
  cases h
  rfl

/-- Every known token has its place. -/
theorem place (h : token.isKnown = true) :
    Place token token.startsOperand token.completesOperand := by
  cases token with
  | stray _ => cases h
  | number _ | argument _ | constant _ => exact .leaf rfl
  | opening => exact .opening
  | closing => exact .closing
  | call name =>
    obtain ⟨op, hop, -⟩ := exists_operator?_call name
    exact .leading (.call hop)
  | binary symbol =>
    obtain ⟨op, hop⟩ := Option.isSome_iff_exists.mp h
    exact .joining (.binary hop)
  | unary symbol =>
    obtain ⟨op, hop⟩ := Option.isSome_iff_exists.mp h
    rw [startsOperand, completesOperand, followsOperand_unary hop]
    cases hfollows : op.followsOperand with
    | true => exact .trailing (.unary hop hfollows)
    | false => exact .leading (.unary hop hfollows)

/-- A token that is an operand both starts and ends one, a binary operator does
neither, and any other token does one of the two. -/
theorem Place.count (h : Place token starts completes) :
    token.isOperand.toNat + 1 = token.isBinary.toNat + starts.toNat + completes.toNat := by
  cases h with
  | leaf hleaf => cases token <;> first | rfl | cases hleaf
  | opening | closing => rfl
  | leading hleads => cases hleads <;> rfl
  | joining hjoins => cases hjoins; rfl
  | trailing htrails => cases htrails; rfl

end Token

open Token

variable {token : Token} {tokens ts us outer part : List Token} {depth : Nat}
  {ended before between after : Bool}

/-- How many operands start where another one has just ended. Whether one has ended
before the first token is given. -/
def crowdedPlaces : Bool → List Token → Nat
  | _, [] => 0
  | ended, token :: tokens =>
    (ended && token.startsOperand).toNat + crowdedPlaces token.completesOperand tokens

/-- How many tokens that start no operand stand where none has ended, with the end
of the tokens as one of them. -/
def emptyPlaces : Bool → List Token → Nat
  | ended, [] => (!ended).toNat
  | ended, token :: tokens =>
    (!ended && !token.startsOperand).toNat + emptyPlaces token.completesOperand tokens

/-- The counts of the tokens give the difference of crowded and empty places. -/
theorem countP_add_emptyPlaces (hknown : ∀ token ∈ tokens, token.isKnown = true) :
    tokens.countP isOperand + emptyPlaces ended tokens + ended.toNat =
      tokens.countP isBinary + crowdedPlaces ended tokens + 1 := by
  have hgap : ∀ ended starts : Bool, (!ended && !starts).toNat + ended.toNat + starts.toNat =
      (ended && starts).toNat + 1 := by
    decide
  have hcountP (p : Token → Bool) (token : Token) (tokens : List Token) :
      (token :: tokens).countP p = tokens.countP p + (p token).toNat := by
    rw [List.countP_cons]
    cases p token <;> rfl
  induction tokens generalizing ended with
  | nil => cases ended <;> rfl
  | cons token tokens ih =>
    obtain ⟨htoken, hknown⟩ := List.forall_mem_cons.mp hknown
    have hcount := (place htoken).count
    have hrest := @ih token.completesOperand hknown
    have hhere := hgap ended token.startsOperand
    rw [emptyPlaces, crowdedPlaces, hcountP, hcountP]
    omega

/-! ## Nothing is out of place in a well-formed expression -/

/-- Tokens that close all groups they open and have nothing out of place, between
two places of which it is told whether an operand has ended there. -/
structure Passes (tokens : List Token) (before after : Bool) : Prop where
  groups : ∀ depth rest, closesGroups depth (tokens ++ rest) = closesGroups depth rest
  crowded : ∀ rest, crowdedPlaces before (tokens ++ rest) = crowdedPlaces after rest
  empty : ∀ rest, emptyPlaces before (tokens ++ rest) = emptyPlaces after rest

namespace Passes

/-- Between a place and itself there is nothing out of place. -/
theorem nil (ended : Bool) : Passes [] ended ended :=
  ⟨fun _ _ => rfl, fun _ => rfl, fun _ => rfl⟩

/-- Two stretches with nothing out of place make one if the second starts as the first
ends. -/
theorem append (h : Passes ts before between) (h' : Passes us between after) :
    Passes (ts ++ us) before after := by
  refine ⟨fun depth rest => ?_, fun rest => ?_, fun rest => ?_⟩
  · rw [List.append_assoc, h.groups, h'.groups]
  · rw [List.append_assoc, h.crowded, h'.crowded]
  · rw [List.append_assoc, h.empty, h'.empty]

/-- An operand has to start where none has ended, and any other token stands behind
an operand. -/
theorem singleton (hparenthesis : token.isParenthesis = false)
    (h : Place token (!ended) after) : Passes [token] ended after := by
  obtain ⟨hstarts, hcompletes⟩ := h.eq
  refine ⟨fun depth rest => closesGroups_of_not_isParenthesis hparenthesis, fun rest => ?_,
    fun rest => ?_⟩
  · simp [crowdedPlaces, hstarts, hcompletes]
  · simp [emptyPlaces, hstarts, hcompletes]

/-- An operand by itself goes where none has ended. -/
theorem leaf (h : token.isOperand = true) : Passes [token] false true :=
  singleton (isParenthesis_of_isOperand h) (.leaf h)

/-- An operator between operands goes where one has ended and the next one is to come. -/
theorem joint {op : Operator} (h : token.Joins op) : Passes [token] true false :=
  singleton h.isParenthesis (.joining h)

/-- Operators in front of an operand go where one is to come, and it is still to come
behind them. -/
theorem leading (h : ∀ token ∈ tokens, ∃ op, token.Leads op) : Passes tokens false false := by
  induction tokens with
  | nil => exact nil false
  | cons token tokens ih =>
    obtain ⟨⟨op, hop⟩, htokens⟩ := List.forall_mem_cons.mp h
    have hfirst : Passes [token] false false := singleton hop.isParenthesis (.leading hop)
    exact hfirst.append (ih htokens)

/-- Operators behind an operand go where it has ended, and it has still ended behind
them. -/
theorem trailing (h : ∀ token ∈ tokens, ∃ op, token.Trails op) : Passes tokens true true := by
  induction tokens with
  | nil => exact nil true
  | cons token tokens ih =>
    obtain ⟨⟨op, hop⟩, htokens⟩ := List.forall_mem_cons.mp h
    have hfirst : Passes [token] true true := singleton hop.isParenthesis (.trailing hop)
    exact hfirst.append (ih htokens)

/-- A group with nothing out of place inside goes where an operand can go. -/
theorem group (h : Passes ts false true) : Passes (.opening :: ts ++ [.closing]) false true := by
  refine ⟨fun depth rest => ?_, fun rest => ?_, fun rest => ?_⟩
  · simp [closesGroups, h.groups]
  · have hinside := h.crowded (.closing :: rest)
    simpa [crowdedPlaces, startsOperand, completesOperand, endsOperand] using hinside
  · have hinside := h.empty (.closing :: rest)
    simpa [emptyPlaces, startsOperand, completesOperand, endsOperand] using hinside

end Passes

mutual

/-- A well-formed sequence has nothing out of place, by induction on its operands. -/
theorem WellFormed.passes {ts : List Token} : WellFormed ts → Passes ts false true
  | .operand h => h.passes
  | .joined h hjoint hu => h.passes.append ((Passes.joint hjoint).append hu.passes)

/-- An operand has nothing out of place: operators in front, a leaf or a group, operators
behind. -/
theorem WellFormedOperand.passes {ts : List Token} : WellFormedOperand ts → Passes ts false true
  | .leaf hfront htoken hback =>
    (Passes.leading hfront).append ((Passes.leaf htoken).append (Passes.trailing hback))
  | .group hfront h hback => by
    have hwhole := (Passes.leading hfront).append (h.passes.group.append (Passes.trailing hback))
    simpa using hwhole

end

/-! ## An expression with nothing out of place is well-formed -/

/-- An operand with one more operator in front is an operand. -/
theorem WellFormedOperand.leading {p : Token} {op : Operator} (h : WellFormedOperand us)
    (hp : p.Leads op) : WellFormedOperand (p :: us) := by
  cases h with
  | @leaf front back token hfront htoken hback =>
    have hall := List.forall_mem_cons.mpr ⟨⟨op, hp⟩, hfront⟩
    exact @WellFormedOperand.leaf (p :: front) back token hall htoken hback
  | @group front back ts hfront hts hback =>
    have hall := List.forall_mem_cons.mpr ⟨⟨op, hp⟩, hfront⟩
    exact @WellFormedOperand.group (p :: front) back ts hall hts hback

/-- An operand with one more operator behind is an operand. -/
theorem WellFormedOperand.trailing {q : Token} {op : Operator} (h : WellFormedOperand us)
    (hq : q.Trails op) : WellFormedOperand (us ++ [q]) := by
  have hback {back : List Token} (hback : ∀ q ∈ back, ∃ op, q.Trails op) :
      ∀ q' ∈ back ++ [q], ∃ op, q'.Trails op :=
    List.forall_mem_append.mpr ⟨hback, List.forall_mem_singleton.mpr ⟨op, hq⟩⟩
  cases h with
  | leaf hfront htoken hlast => simpa using WellFormedOperand.leaf hfront htoken (hback hlast)
  | group hfront hts hlast => simpa using WellFormedOperand.group hfront hts (hback hlast)

/-- An operator behind a sequence belongs to its last operand. -/
theorem WellFormed.trailing {q : Token} {op : Operator} (h : WellFormed ts) (hq : q.Trails op) :
    WellFormed (ts ++ [q]) := by
  cases h with
  | operand h => exact .operand (h.trailing hq)
  | joined h hjoint hu => simpa using WellFormed.joined h hjoint (hu.trailing hq)

/-- What has been read of an expression with nothing out of place so far: an
expression, or the tokens in front of an operand. -/
inductive ReadSoFar : Bool → List Token → Prop where
  | start : ReadSoFar false []
  | joint {ts : List Token} {joint : Token} {op : Operator} : WellFormed ts → joint.Joins op →
      ReadSoFar false (ts ++ [joint])
  | leading {ts : List Token} {p : Token} {op : Operator} : ReadSoFar false ts → p.Leads op →
      ReadSoFar false (ts ++ [p])
  | ended {ts : List Token} : WellFormed ts → ReadSoFar true ts

/-- Where an operand is to come, it completes what has been read to a well-formed
sequence. -/
theorem ReadSoFar.operand (h : ReadSoFar false part) (hu : WellFormedOperand us) :
    WellFormed (part ++ us) := by
  generalize hended : false = ended at h
  induction h generalizing us with
  | start => exact .operand hu
  | joint hts hjoint => simpa using WellFormed.joined hts hjoint hu
  | leading _ hp ih => simpa using ih (hu.leading hp) hended
  | ended _ => cases hended

/-- The groups that are open, each after what had been read before it. -/
inductive OpenGroups : Nat → List Token → Prop where
  | none : OpenGroups 0 []
  | group {depth : Nat} {outer part : List Token} : OpenGroups depth outer →
      ReadSoFar false part → OpenGroups (depth + 1) (outer ++ part ++ [.opening])

/-- Tokens with nothing out of place complete what has been read to a well-formed
sequence, with the groups around it. The induction is on the tokens, and a parenthesis
moves what has been read into the open groups or out of them. -/
theorem wellFormed_of_places (houter : OpenGroups depth outer) (hpart : ReadSoFar ended part)
    (hknown : ∀ token ∈ tokens, token.isKnown = true)
    (hcloses : closesGroups depth tokens = true) (hcrowded : crowdedPlaces ended tokens = 0)
    (hempty : emptyPlaces ended tokens = 0) : WellFormed (outer ++ part ++ tokens) := by
  induction tokens generalizing depth outer ended part with
  | nil =>
    cases hpart with
    | ended hts =>
      cases houter with
      | none => simpa using hts
      | group _ _ => cases hcloses
    | start | joint _ _ | leading _ _ => cases hempty
  | cons token tokens ih =>
    obtain ⟨htoken, hrest⟩ := List.forall_mem_cons.mp hknown
    have hplace := place htoken
    rw [crowdedPlaces, Nat.add_eq_zero_iff] at hcrowded
    rw [emptyPlaces, Nat.add_eq_zero_iff] at hempty
    -- Nothing is crowded and nothing empty here, so the place of the token tells
    -- whether an operand has just ended, and the token goes on with what was read.
    generalize token.startsOperand = starts at hplace hcrowded hempty
    generalize token.completesOperand = completes at hplace hcrowded hempty
    cases hplace with
    | leaf hleaf =>
      obtain rfl : ended = false := by simpa using hcrowded.1
      rw [closesGroups_of_not_isParenthesis (isParenthesis_of_isOperand hleaf)] at hcloses
      have hoperand : WellFormedOperand [token] :=
        @WellFormedOperand.leaf [] [] token (by simp) hleaf (by simp)
      simpa using ih houter (.ended (hpart.operand hoperand)) hrest hcloses hcrowded.2 hempty.2
    | opening =>
      obtain rfl : ended = false := by simpa using hcrowded.1
      simpa using ih (.group houter hpart) .start hrest hcloses hcrowded.2 hempty.2
    | leading hp =>
      obtain rfl : ended = false := by simpa using hcrowded.1
      rw [closesGroups_of_not_isParenthesis hp.isParenthesis] at hcloses
      simpa using ih houter (.leading hpart hp) hrest hcloses hcrowded.2 hempty.2
    | joining hjoint =>
      obtain rfl : ended = true := by simpa using hempty.1
      rw [closesGroups_of_not_isParenthesis hjoint.isParenthesis] at hcloses
      cases hpart with
      | ended hts =>
        simpa using ih houter (.joint hts hjoint) hrest hcloses hcrowded.2 hempty.2
    | trailing hq =>
      obtain rfl : ended = true := by simpa using hempty.1
      rw [closesGroups_of_not_isParenthesis hq.isParenthesis] at hcloses
      cases hpart with
      | ended hts =>
        simpa using ih houter (.ended (hts.trailing hq)) hrest hcloses hcrowded.2 hempty.2
    | closing =>
      obtain rfl : ended = true := by simpa using hempty.1
      cases hpart with
      | ended hts =>
        cases houter with
        | none => cases hcloses
        | group houter hpart =>
          -- The group that closes is an operand of the part around it.
          have hoperand : WellFormedOperand (.opening :: part ++ [.closing]) :=
            @WellFormedOperand.group [] [] part (by simp) hts (by simp)
          simpa using
            ih houter (.ended (hpart.operand hoperand)) hrest hcloses hcrowded.2 hempty.2

/-- Known tokens are a well-formed expression exactly if their parentheses are
balanced and no operand is out of place. -/
theorem wellFormed_iff (hknown : ∀ token ∈ tokens, token.isKnown = true) :
    WellFormed tokens ↔
      Balanced tokens ∧ crowdedPlaces false tokens = 0 ∧ emptyPlaces false tokens = 0 := by
  rw [← closesGroups_zero_iff]
  constructor
  · intro h
    have hgroups := h.passes.groups 0 []
    have hcrowded := h.passes.crowded []
    have hempty := h.passes.empty []
    rw [List.append_nil] at hgroups hcrowded hempty
    exact ⟨hgroups, hcrowded, hempty⟩
  · rintro ⟨hcloses, hcrowded, hempty⟩
    exact wellFormed_of_places .none .start hknown hcloses hcrowded hempty

namespace Calculator

variable {calculator : Calculator} {terms : List String} {value : Float}

/-- Keys that have a value have balanced parentheses, and as many operands start
where another one has just ended as are missing elsewhere. They are a well-formed
expression exactly if there are none of either. -/
theorem calculate_places (h : calculator.calculate terms = .ok value) :
    ∃ ts, Keypad.tokens terms = .ok ts ∧ Balanced ts ∧
      crowdedPlaces false ts = emptyPlaces false ts ∧
      (WellFormed ts ↔ crowdedPlaces false ts = 0) := by
  obtain ⟨ts, hts, -⟩ := bind_eq_ok_iff.mp h
  refine ⟨ts, hts, ?_⟩
  have hknown := Keypad.isKnown_of_tokens hts
  rcases @calculate_outcome calculator terms ts hts with
    ⟨hbalanced, -, -, -, houtcome⟩ | ⟨-, -, herror⟩
  · rw [h] at houtcome
    have hplaces : crowdedPlaces false ts = emptyPlaces false ts := by
      cases houtcome with
      | value hcount =>
        have hdifference := @countP_add_emptyPlaces ts false hknown
        rw [Bool.toNat_false] at hdifference
        omega
    refine ⟨hbalanced, hplaces, ?_⟩
    rw [wellFormed_iff hknown, ← hplaces, and_self]
    exact and_iff_right hbalanced
  · rw [h] at herror
    cases herror

/-- A quotient in which nothing is out of place. -/
theorem calculate_places_rootQuotient :
    ({} : Calculator).calculate ["√", "(", "π", ")", "÷", "e", "x²"] =
      .ok (Float.sqrt piValue / (eulerValue * eulerValue)) ∧
    ∃ ts, Keypad.tokens ["√", "(", "π", ")", "÷", "e", "x²"] = .ok ts ∧ Balanced ts ∧
      crowdedPlaces false ts = emptyPlaces false ts ∧
      (WellFormed ts ↔ crowdedPlaces false ts = 0) := by
  have hvalue : ({} : Calculator).calculate ["√", "(", "π", ")", "÷", "e", "x²"] =
      .ok (Float.sqrt piValue / (eulerValue * eulerValue)) := by
    rfl
  exact ⟨hvalue, calculate_places hvalue⟩

/-- A root behind its operand has a value, though it is crowded by the operand and
has none of its own. -/
theorem calculate_rootBehindOperand :
    ({} : Calculator).calculate ["π", "√"] = .ok (Float.sqrt piValue) ∧
    Keypad.tokens ["π", "√"] = .ok [.constant "π", .unary "√"] ∧
    ¬WellFormed [.constant "π", .unary "√"] := by
  refine ⟨by rfl, by rfl, fun h => ?_⟩
  have hcrowded := h.passes.crowded []
  revert hcrowded
  decide

end Calculator

end FormulaCalculator
