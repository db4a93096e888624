import FormulaCalculator.Proofs.ReadingSoundness
import FormulaCalculator.Proofs.ShuntingYard
import Mathlib.Control.Monad.Basic

/-!
# The postfix order of a formula

A formula that has a syntax tree can be brought into postfix order too, once the
products that its parts make by standing side by side have their signs. The two
agree: the postfix order is that of the syntax tree, unless a minus stands in
front of a group that is the base of a power. There the minus takes the power in
the syntax tree, and the group alone in postfix order.

The argument follows the derivation of the formula. Each of its parts is grouped
by precedence and associativity as its derivation says, with no operator on its
edges that is weaker than the kind of the part allows.
-/

set_option autoImplicit false

namespace FormulaCalculator

namespace Reading

/-- A token as it is read: with the sign of a product in front of it if it makes
one with the operand that has just ended. The sign has no place of its own. -/
def spelled (reading : Reading) (next : Located) : List Located :=
  if !reading.operandDue && next.token.juxtaposes then
    [⟨next.position, .binary "*"⟩, next]
  else [next]

/-- The tokens that are read, with the signs of the products that reading them
implies. -/
def spellOut (reading : Reading) : List Located → Except SyntaxError (List Located)
  | [] => .ok []
  | next :: located => do
    let after ← reading.step next
    return reading.spelled next ++ (← after.spellOut located)

variable {reading after : Reading} {next : Located} {located spelled : List Located}

/-- A token with the sign of its product spelled out is read like the token alone. -/
theorem foldlM_spelled : (reading.spelled next).foldlM step reading = reading.step next := by
  unfold Reading.spelled
  split
  · next h =>
    rw [Bool.and_eq_true, Bool.not_eq_true'] at h
    rw [step_juxtaposes h.1 h.2, List.foldlM_cons]
    exact bind_congr fun middle => bind_pure _
  · exact bind_pure _

/-- The signs of implied products change nothing where a formula is read. -/
theorem foldlM_spellOut (h : reading.spellOut located = .ok spelled) :
    spelled.foldlM step reading = located.foldlM step reading := by
  induction located generalizing reading spelled with
  | nil =>
    cases h
    rfl
  | cons next located ih =>
    simp only [spellOut, bind_eq_ok_iff] at h
    obtain ⟨after, hstep, rest, hrest, heq⟩ := h
    cases heq
    rw [List.foldlM_append, foldlM_spelled, List.foldlM_cons, hstep]
    exact ih hrest

/-- Reading a token leaves an operand due exactly if the token ends none. -/
theorem operandDue_of_step (h : reading.step next = .ok after) :
    after.operandDue = !next.token.endsOperand := by
  obtain ⟨position, token⟩ := next
  cases token with
  | number _ | argument _ | constant _ =>
    simp only [step, operand, bind_eq_ok_iff] at h
    obtain ⟨_, -, heq⟩ := h
    cases heq
    rfl
  | call _ | opening =>
    simp only [step, leading, bind_eq_ok_iff] at h
    obtain ⟨_, -, heq⟩ := h
    cases heq
    rfl
  | unary symbol =>
    simp only [step] at h
    split at h
    · simp only [leading, bind_eq_ok_iff] at h
      obtain ⟨_, -, heq⟩ := h
      cases heq
      rfl
    · cases h
  | binary symbol => exact operandDue_of_binary h
  | closing =>
    -- Whether the group is one of a call or not, its tree is an operand that has ended.
    simp only [step, closing] at h
    split at h
    · cases h
    · simp only [bind_eq_ok_iff] at h
      obtain ⟨⟨operands, waiting⟩, -, h⟩ := h
      split at h
      · simp only [bind_eq_ok_iff] at h
        obtain ⟨_, -, heq⟩ := h
        cases heq
        rfl
      · cases h
        rfl
  | stray lexeme => cases h

end Reading

namespace Token

/-- What stands behind the parenthesis that closes the group that is open in
front of the tokens, where so many groups inside it are open too. -/
def behindGroup : Nat → List Token → List Token
  | _, [] => []
  | depth, .opening :: tokens => behindGroup (depth + 1) tokens
  | 0, .closing :: tokens => tokens
  | depth + 1, .closing :: tokens => behindGroup depth tokens
  | depth, _ :: tokens => behindGroup depth tokens

/-- Whether the tokens start with a minus in front of a group that is the base of
a power. -/
def startsNegatedBase : List Token → Bool
  | .unary sign :: .opening :: tokens =>
    sign = "-" && (behindGroup 0 tokens).head? = some (.binary "^")
  | _ => false

/-- Whether a minus stands anywhere in front of a group that is the base of a
power. -/
def negatesBase : List Token → Bool
  | [] => false
  | token :: tokens => startsNegatedBase (token :: tokens) || negatesBase tokens

/-- Whether the last token ends an operand, where one may have ended before the
tokens. -/
def endedAfter (ended : Bool) (tokens : List Token) : Bool :=
  tokens.foldl (fun _ token => token.endsOperand) ended

/-- The tokens, with the sign of a product in front of each one that makes a
product with an operand that has ended directly before it. -/
def withProducts (ended : Bool) : List Token → List Token
  | [] => []
  | token :: tokens =>
    if ended && token.juxtaposes then
      .binary "*" :: token :: withProducts token.endsOperand tokens
    else token :: withProducts token.endsOperand tokens

variable {ended : Bool} {tokens more : List Token} {token : Token} {depth : Nat}

/-- Only the last token decides whether an operand has ended. -/
@[simp]
theorem endedAfter_cons : endedAfter ended (token :: tokens) =
    endedAfter token.endsOperand tokens := rfl

/-- Whether an operand has ended can be told part by part. -/
@[simp]
theorem endedAfter_append : endedAfter ended (tokens ++ more) =
    endedAfter (endedAfter ended tokens) more := List.foldl_append

/-- Signs of products are put in part by part, with what the first part ends with. -/
theorem withProducts_append : withProducts ended (tokens ++ more) =
    withProducts ended tokens ++ withProducts (endedAfter ended tokens) more := by
  induction tokens generalizing ended with
  | nil => rfl
  | cons token tokens ih =>
    rw [List.cons_append, withProducts, withProducts, ih]
    split <;> rfl

/-- No product is implied in front of a sign, and none directly behind it. -/
theorem withProducts_binary {symbol : String} : withProducts ended (.binary symbol :: tokens) =
    .binary symbol :: withProducts false tokens := by
  simp [withProducts, juxtaposes, endsOperand]

/-- No product is implied in front of a closing parenthesis, but one may be behind it. -/
theorem withProducts_closing :
    withProducts ended (.closing :: tokens) = .closing :: withProducts true tokens := by
  simp [withProducts, juxtaposes, endsOperand]

/-- An operand directly behind another one gets the sign of a product in front. -/
theorem withProducts_of_juxtaposes (h : tokens.head?.any juxtaposes = true) :
    withProducts true tokens = .binary "*" :: withProducts false tokens := by
  cases tokens with
  | nil => cases h
  | cons token tokens =>
    have htoken : token.juxtaposes = true := h
    simp [withProducts, htoken]

/-- Signs do not change how many groups are open. -/
theorem behindGroup_binary {symbol : String} :
    behindGroup depth (.binary symbol :: tokens) = behindGroup depth tokens := rfl

/-- Plus and minus join their operands, on the level of sums. -/
theorem Adds.exists_joins (h : token.Adds) : ∃ symbol op, token = .binary symbol ∧
    (Token.binary symbol).Joins op ∧ op.precedence = 2 ∧ op.associativity = .left := by
  cases h <;> exact ⟨_, _, rfl, .binary rfl, rfl, rfl⟩

/-- The signs of products and quotients join their operands, on the level of products. -/
theorem Scales.exists_joins (h : token.Scales) : ∃ symbol op, token = .binary symbol ∧
    (Token.binary symbol).Joins op ∧ op.precedence = 3 ∧ op.associativity = .left := by
  cases h <;> exact ⟨_, _, rfl, .binary rfl, rfl, rfl⟩

/-- The parenthesis that closes a group can be put behind it before or after the signs of
products are put in. -/
theorem withProducts_group : withProducts ended (tokens ++ [.closing]) =
    withProducts ended tokens ++ [.closing] := by
  rw [withProducts_append, withProducts_closing]
  rfl

/-- Where no operand has ended, nothing is put in front of the first token. -/
theorem head?_withProducts : (withProducts false tokens).head? = tokens.head? := by
  cases tokens <;> rfl

/-- Where a group is closed within the tokens, what stands behind it goes on with whatever
follows. -/
theorem behindGroup_append (h : behindGroup depth tokens ≠ []) :
    behindGroup depth (tokens ++ more) = behindGroup depth tokens ++ more := by
  induction tokens generalizing depth with
  | nil => exact absurd rfl h
  | cons token tokens ih =>
    cases token with
    | closing =>
      cases depth with
      | zero => rfl
      | succ depth => exact ih h
    | _ => exact ih h

/-- A base with a minus in front is one whatever follows. -/
theorem startsNegatedBase_append (h : startsNegatedBase tokens = true) :
    startsNegatedBase (tokens ++ more) = true := by
  unfold startsNegatedBase at h
  split at h
  · next sign rest =>
    rw [Bool.and_eq_true, decide_eq_true_iff, decide_eq_true_iff] at h
    obtain ⟨rfl, hcaret⟩ := h
    have hne : behindGroup 0 rest ≠ [] := by
      intro hnil
      rw [hnil] at hcaret
      cases hcaret
    simp [startsNegatedBase, behindGroup_append hne, hcaret]
  · cases h

/-- If a minus stands in front of a group that is no base of a power, no sign of a power
stands behind that group. -/
theorem behindGroup_tail_of_startsNegatedBase (h : startsNegatedBase (.unary "-" :: tokens) = false)
    (hhead : tokens.head? = some .opening) :
    (behindGroup 0 tokens.tail).head? ≠ some (.binary "^") := by
  cases tokens with
  | nil => cases hhead
  | cons token tokens =>
    obtain rfl := Option.some.inj hhead
    simpa [startsNegatedBase] using h

/-- Where no minus stands in front of a base, none does in either part. -/
theorem negatesBase_append (h : negatesBase (tokens ++ more) = false) :
    negatesBase tokens = false ∧ negatesBase more = false := by
  induction tokens with
  | nil => exact ⟨rfl, h⟩
  | cons token tokens ih =>
    rw [List.cons_append, negatesBase, Bool.or_eq_false_iff] at h
    obtain ⟨hstarts, hmore⟩ := ih h.2
    refine ⟨?_, hmore⟩
    rw [negatesBase, hstarts, Bool.or_false, ← Bool.not_eq_true]
    intro htrue
    rw [← List.cons_append, startsNegatedBase_append htrue] at h
    cases h.1

/-- Where no minus stands in front of a base, none does on either side of a token. -/
theorem negatesBase_joined (h : negatesBase (tokens ++ token :: more) = false) :
    negatesBase tokens = false ∧ negatesBase more = false := by
  obtain ⟨hbase, hbase'⟩ := negatesBase_append h
  exact ⟨hbase, (@negatesBase_append [token] _ hbase').2⟩

end Token

open Token

namespace Derives

variable {category : Category} {ts : List Token} {t : SyntaxTree}

/-- Every part of a formula ends with the end of an operand. -/
theorem endedAfter_eq_true (h : Derives category ts t) (ended : Bool) :
    endedAfter ended ts = true := by
  induction h generalizing ended with
  | product _ ih | factor _ ih | primary _ ih => exact ih ended
  | added _ _ _ _ ihu | scaled _ _ _ _ ihu | power _ _ _ ihu =>
    rw [endedAfter_append, endedAfter_cons, ihu]
  | juxtaposed _ _ _ _ ihu => rw [endedAfter_append, ihu]
  | negated _ ih => exact ih _
  | leaf htoken => cases ‹Token› <;> first | rfl | cases htoken
  | call _ _ | group _ _ => rw [endedAfter_append]; rfl

/-- The groups in a part are all closed in it. -/
theorem behindGroup_append (h : Derives category ts t) (depth : Nat) (more : List Token) :
    behindGroup depth (ts ++ more) = behindGroup depth more := by
  induction h generalizing depth more with
  | product _ ih | factor _ ih | primary _ ih => exact ih depth more
  | added _ hsign _ ih ihu =>
    obtain ⟨symbol, -, rfl, -⟩ := hsign.exists_joins
    rw [List.append_assoc, ih, List.cons_append, behindGroup_binary, ihu]
  | scaled _ hsign _ ih ihu =>
    obtain ⟨symbol, -, rfl, -⟩ := hsign.exists_joins
    rw [List.append_assoc, ih, List.cons_append, behindGroup_binary, ihu]
  | juxtaposed _ _ _ ih ihu => rw [List.append_assoc, ih, ihu]
  | negated _ ih => exact ih depth more
  | power _ _ ih ihu => rw [List.append_assoc, ih, List.cons_append, behindGroup_binary, ihu]
  | leaf htoken => cases ‹Token› <;> first | rfl | cases htoken
  | call _ ih | group _ ih =>
    rw [List.append_assoc]
    exact ih (depth + 1) (.closing :: more)

/-- Behind a primary that starts with a group is what stands behind the group. -/
theorem behindGroup_tail (h : Derives .primary ts t) (hhead : ts.head? = some .opening)
    (more : List Token) : behindGroup 0 (ts ++ more).tail = more := by
  cases h with
  | leaf htoken =>
    obtain rfl := Option.some.inj hhead
    cases htoken
  | call _ => cases hhead
  | group hinner =>
    rw [List.append_assoc]
    exact hinner.behindGroup_append 0 (.closing :: more)

end Derives

/-- The part is grouped as the tree, and no operator on its edges is weaker than
its kind allows. An operator in front of it takes it whole if it is a group. -/
structure GroupedAs (category : Category) (ts : List Token) (t : SyntaxTree)
    (left right : List Operator) : Prop where
  grouping : Grouping (withProducts false ts) left right t
  left_edge : ∀ op ∈ left, category.weakest ≤ op.precedence ∧
    (negation.precedence ≤ op.precedence → op.associativity = .right)
  right_edge : ∀ op ∈ right, category.weakest ≤ op.precedence
  taken : negation.precedence ≤ category.weakest → ts.head? = some .opening →
    (behindGroup 0 ts.tail).head? ≠ some (.binary "^") → ∀ p op, p.Leads op →
      Grouping (p :: withProducts false ts) [] [] (.unary p t)

namespace GroupedAs

variable {category other : Category} {ts us vs : List Token} {t u : SyntaxTree}
  {left right left' right' : List Operator} {symbol : String} {op : Operator}

/-- A part can stand where a part of a looser kind can. -/
theorem mono (h : GroupedAs category ts t left right) (hle : other.weakest ≤ category.weakest) :
    GroupedAs other ts t left right := by
  refine ⟨h.grouping, fun op hop => ?_, fun op hop => Nat.le_trans hle (h.right_edge op hop),
    fun hminus => h.taken (Nat.le_trans hminus hle)⟩
  exact ⟨Nat.le_trans hle (h.left_edge op hop).1, (h.left_edge op hop).2⟩

/-- A part is joined with a part of a stronger kind by a sign of its own kind. -/
theorem joined (h : GroupedAs category ts t left right) (hu : GroupedAs other us u left' right')
    (hjoins : (Token.binary symbol).Joins op) (hop : op.precedence = category.weakest)
    (hleft : op.associativity = .left) (hlt : category.weakest < other.weakest)
    (hminus : category.weakest < negation.precedence)
    (hvs : withProducts false vs =
      withProducts false ts ++ .binary symbol :: withProducts false us) :
    GroupedAs category vs (.binary (.binary symbol) t u) (op :: left) (op :: right') := by
  have hself : category.weakest ≤ op.precedence := Nat.le_of_eq hop.symm
  refine ⟨?_, ?_, ?_, fun hge => absurd hminus (Nat.not_lt.mpr hge)⟩
  · rw [hvs]
    refine .joined h.grouping hjoins hu.grouping (fun o ho => ?_) (fun o ho => ?_)
    · exact Operator.goesBefore_of_left hleft (hop ▸ h.right_edge o ho)
    · refine Operator.not_goesBefore_of_lt (hop ▸ ?_)
      exact Nat.lt_of_lt_of_le hlt (hu.left_edge o ho).1
  · refine List.forall_mem_cons.mpr ⟨⟨hself, fun hge => ?_⟩, h.left_edge⟩
    exact absurd hminus (Nat.not_lt.mpr (hop ▸ hge))
  · exact List.forall_mem_cons.mpr ⟨hself, fun o ho =>
      Nat.le_trans (Nat.le_of_lt hlt) (hu.right_edge o ho)⟩

/-- Two parts with a sign between them are grouped as the tree with both, if the sign is
the weakest operator of the left one and weaker than all of the right one. -/
theorem exists_joined {sign : Token} (h : GroupedAs category ts t left right)
    (hu : GroupedAs other us u left' right')
    (hsign : ∃ symbol op, sign = .binary symbol ∧ (Token.binary symbol).Joins op ∧
      op.precedence = category.weakest ∧ op.associativity = .left)
    (hlt : category.weakest < other.weakest) (hminus : category.weakest < negation.precedence) :
    ∃ left right, GroupedAs category (ts ++ sign :: us) (.binary sign t u) left right := by
  obtain ⟨symbol, op, rfl, hjoins, hop, hleft⟩ := hsign
  refine ⟨_, _, h.joined hu hjoins hop hleft hlt hminus ?_⟩
  rw [withProducts_append, withProducts_binary]

end GroupedAs

/-- A derived part is grouped as the tree of its derivation, with the signs of its
products and unless a minus stands in front of the base of a power. -/
theorem Derives.exists_groupedAs {category : Category} {ts : List Token} {t : SyntaxTree}
    (h : Derives category ts t) (hbase : negatesBase ts = false) :
    ∃ left right, GroupedAs category ts t left right := by
  induction h with
  | product _ ih | factor _ ih | primary _ ih =>
    obtain ⟨left, right, h⟩ := ih hbase
    exact ⟨left, right, h.mono (by decide)⟩
  | added _ hsign _ ih ihu | scaled _ hsign _ ih ihu =>
    obtain ⟨hbase, hbase'⟩ := negatesBase_joined hbase
    obtain ⟨_, _, h⟩ := ih hbase
    obtain ⟨_, _, hu⟩ := ihu hbase'
    exact h.exists_joined hu hsign.exists_joins (by decide) (by decide)
  | juxtaposed hts _ hhead ih ihu =>
    obtain ⟨symbol, op, heq, hjoins, hop, hleft⟩ := Token.Scales.times.exists_joins
    cases heq
    obtain ⟨hbase, hbase'⟩ := negatesBase_append hbase
    obtain ⟨_, _, h⟩ := ih hbase
    obtain ⟨_, _, hu⟩ := ihu hbase'
    refine ⟨_, _, h.joined hu hjoins hop hleft (by decide) (by decide) ?_⟩
    rw [withProducts_append, hts.endedAfter_eq_true, withProducts_of_juxtaposes hhead]
  | @negated ts t _ ih =>
    rw [negatesBase, Bool.or_eq_false_iff] at hbase
    obtain ⟨left, right, h⟩ := ih hbase.2
    have hleads : (Token.unary "-").Leads negation := .unary rfl rfl
    -- A minus takes a group as soon as the group closes; anything else it waits for.
    by_cases hhead : ts.head? = some .opening
    · have htaken := h.taken (by decide) hhead (behindGroup_tail_of_startsNegatedBase hbase.1 hhead)
      exact ⟨[], [], htaken _ _ hleads, by simp, by simp, by simp⟩
    · have hleft (o : Operator) (ho : o ∈ left) : negation.goesBefore o = false := by
        obtain ⟨hge, hright⟩ := h.left_edge o ho
        exact Operator.not_goesBefore_of_right (hright hge) hge
      have hopen : (withProducts false ts).head? ≠ some .opening := by
        rwa [head?_withProducts]
      refine ⟨[], negation :: right, .leading hleads h.grouping hopen hleft, by simp, ?_, by simp⟩
      exact List.forall_mem_cons.mpr ⟨by decide, h.right_edge⟩
  | @power ts us t u hts _ ih ihu =>
    obtain ⟨hbase, hbase'⟩ := negatesBase_joined hbase
    obtain ⟨left, right, h⟩ := ih hbase
    obtain ⟨left', right', hu⟩ := ihu hbase'
    have hright (o : Operator) (ho : o ∈ right) : o.goesBefore caret = true :=
      Operator.goesBefore_of_lt (h.right_edge o ho)
    have hleft (o : Operator) (ho : o ∈ left') : caret.goesBefore o = false := by
      obtain ⟨hge, hassoc⟩ := hu.left_edge o ho
      exact Operator.not_goesBefore_of_right (hassoc hge) hge
    refine ⟨caret :: left, caret :: right', ?_, ?_, ?_, ?_⟩
    · rw [withProducts_append, withProducts_binary]
      exact .joined h.grouping (.binary rfl) hu.grouping hright hleft
    · refine List.forall_mem_cons.mpr ⟨⟨by decide, fun _ => rfl⟩, fun o ho => ?_⟩
      exact ⟨Nat.le_of_succ_le (h.left_edge o ho).1, (h.left_edge o ho).2⟩
    · exact List.forall_mem_cons.mpr ⟨by decide, hu.right_edge⟩
    -- A group at the start would be the base of the power, which is ruled out.
    · intro _ hhead hcaret
      have hgroup : ts.head? = some .opening := by
        cases ts with
        | nil => cases hhead
        | cons first ts => exact hhead
      rw [hts.behindGroup_tail hgroup] at hcaret
      exact absurd rfl hcaret
  | @leaf token htoken =>
    refine ⟨[], [], .leaf htoken, by simp, by simp, fun _ hhead => ?_⟩
    obtain rfl := Option.some.inj hhead
    cases htoken
  | @call name ts t hts ih =>
    obtain ⟨op, hop, -⟩ := Token.exists_operator?_call name
    obtain ⟨-, hbase⟩ := @negatesBase_append [.call name, .opening] _ hbase
    obtain ⟨_, _, h⟩ := ih (negatesBase_append hbase).1
    have hspelled : withProducts false (.call name :: .opening :: ts ++ [.closing]) =
        .call name :: .opening :: withProducts false ts ++ [.closing] := withProducts_group
    refine ⟨[], [], ?_, by simp, by simp, by simp⟩
    rw [hspelled]
    exact .applied (.call hop) h.grouping
  | @group ts t hts ih =>
    obtain ⟨-, hbase⟩ := @negatesBase_append [.opening] _ hbase
    obtain ⟨_, _, h⟩ := ih (negatesBase_append hbase).1
    have hspelled : withProducts false (.opening :: ts ++ [.closing]) =
        .opening :: withProducts false ts ++ [.closing] := withProducts_group
    refine ⟨[], [], ?_, by simp, by simp, fun _ _ _ p op hp => ?_⟩
    · rw [hspelled]
      exact .group h.grouping
    · rw [hspelled]
      exact .applied hp h.grouping

namespace Reading

/-- What is read decides alone on the products that are implied. -/
theorem exists_spellOut {reading after : Reading} {located : List Located}
    (h : located.foldlM step reading = .ok after) :
    ∃ spelled, reading.spellOut located = .ok spelled ∧
      spelled.map Located.token =
        withProducts (!reading.operandDue) (located.map Located.token) := by
  induction located generalizing reading with
  | nil => exact ⟨[], rfl, rfl⟩
  | cons next located ih =>
    rw [List.foldlM_cons, bind_eq_ok_iff] at h
    obtain ⟨middle, hstep, hrest⟩ := h
    obtain ⟨spelled, hspelled, hmap⟩ := ih hrest
    refine ⟨reading.spelled next ++ spelled, by simp [spellOut, hstep, hspelled], ?_⟩
    rw [operandDue_of_step hstep, Bool.not_not] at hmap
    rw [List.map_append, hmap, List.map_cons, withProducts, Reading.spelled]
    split <;> rfl

end Reading

namespace Postfix

/-- If a formula has a syntax tree and no minus in it stands in front of a group
that is the base of a power, then its tokens with the signs of its implied
products have the postfix order of the tree. If it implies no product, then this
is the postfix order of its text. -/
theorem ofTokens_spellOut {text : String} {t : SyntaxTree} (h : SyntaxTree.ofText text = .ok t)
    (hbase : negatesBase (Lexed.ofText text).tokens = false) :
    ∃ spelled, Reading.start.spellOut (Lexed.ofText text).located = .ok spelled ∧
      ofTokens (spelled.map Located.token) = .ok ⟨t.postorder⟩ ∧
      (spelled = (Lexed.ofText text).located → ofText text = .ok ⟨t.postorder⟩) := by
  have hderives := SyntaxTree.derives_of_ofText h
  obtain ⟨left, right, hgrouped⟩ := hderives.exists_groupedAs hbase
  obtain ⟨reading, hread, -⟩ := bind_eq_ok_iff.mp h
  obtain ⟨spelled, hspelled, hmap⟩ := Reading.exists_spellOut hread
  have horder : ofTokens (spelled.map Located.token) = .ok ⟨t.postorder⟩ := by
    rw [hmap]
    exact ofTokens_eq_of_isTreeOf ⟨left, right, hgrouped.grouping⟩
  refine ⟨spelled, hspelled, horder, fun hsame => ?_⟩
  rw [ofText, ← horder, hsame]
  rfl

/-- The tree of `-(x+1)(x-1)^2`, where the groups are multiplied without a sign. -/
def groupProduct : SyntaxTree :=
  .binary (.binary "*")
    (.unary (.unary "-") (.binary (.binary "+") (.leaf (.argument "x")) (.leaf (.number 1))))
    (.binary (.binary "^") (.binary (.binary "-") (.leaf (.argument "x")) (.leaf (.number 1)))
      (.leaf (.number 2)))

/-- In `-(x+1)(x-1)^2` a product is implied between two groups, and the minus stands in
front of the first, which is no base of a power. -/
theorem ofTokens_spellOut_groupProduct :
    SyntaxTree.ofText "-(x+1)(x-1)^2" = .ok groupProduct ∧
      negatesBase (Lexed.ofText "-(x+1)(x-1)^2").tokens = false ∧
      ∃ spelled, Reading.start.spellOut (Lexed.ofText "-(x+1)(x-1)^2").located = .ok spelled ∧
        ofTokens (spelled.map Located.token) = .ok ⟨groupProduct.postorder⟩ ∧
        (spelled = (Lexed.ofText "-(x+1)(x-1)^2").located →
          ofText "-(x+1)(x-1)^2" = .ok ⟨groupProduct.postorder⟩) := by
  have hread : SyntaxTree.ofText "-(x+1)(x-1)^2" = .ok groupProduct := by
    decide +kernel
  have hbase : negatesBase (Lexed.ofText "-(x+1)(x-1)^2").tokens = false := by
    decide +kernel
  exact ⟨hread, hbase, ofTokens_spellOut hread hbase⟩

/-- In the syntax tree the minus of `-(x)^2` takes the power, in postfix order the
group. -/
example : SyntaxTree.ofText "-(x)^2" = .ok (.unary (.unary "-")
      (.binary (.binary "^") (.leaf (.argument "x")) (.leaf (.number 2)))) ∧
    ofText "-(x)^2" = .ok ⟨[.argument "x", .unary "-", .number 2, .binary "^"]⟩ := by
  decide +kernel

end Postfix

end FormulaCalculator
