import FormulaCalculator.Proofs.ReadingCompleteness

/-!
# Everything that is read is a formula of the grammar

After every token that is read without an error, the tokens so far are the start
of a formula: the trees on the stack belong to finished parts of it, and each
token that waits stands behind the parts it has on its left. This tells what
kind of part is due, and, if one has just ended, what the waiting operators will
make of it.
-/

set_option autoImplicit false

namespace FormulaCalculator

/-- Behind the tokens a part of the given kind is due, with these trees and
waiting tokens on the stacks. If the part stands side by side with a factor, it
has to start with a token that makes a product. -/
inductive Awaits : Category → Bool → List Token → List SyntaxTree → List Located → Prop where
  | start : Awaits .sum false [] [] []
  | group {beside : Bool} {ts : List Token} {operands : List SyntaxTree} {waiting : List Located}
      {position : Nat} :
    Awaits .factor beside ts operands waiting →
      Awaits .sum false (ts ++ [.opening]) operands (⟨position, .opening⟩ :: waiting)
  | call {beside : Bool} {ts : List Token} {operands : List SyntaxTree} {waiting : List Located}
      {name : String} {called opened : Nat} :
    Awaits .factor beside ts operands waiting →
      Awaits .sum false (ts ++ [.call name] ++ [.opening]) operands
        (⟨opened, .opening⟩ :: ⟨called, .call name⟩ :: waiting)
  | product {beside : Bool} {ts : List Token} {operands : List SyntaxTree}
      {waiting : List Located} :
    Awaits .sum beside ts operands waiting → Awaits .product beside ts operands waiting
  | added {beside : Bool} {ts us : List Token} {u : SyntaxTree} {operands : List SyntaxTree}
      {waiting : List Located} {sign : Token} {position : Nat} :
    Awaits .sum beside ts operands waiting → Derives .sum us u → sign.Adds →
      Awaits .product false (ts ++ us ++ [sign]) (u :: operands) (⟨position, sign⟩ :: waiting)
  | factor {beside : Bool} {ts : List Token} {operands : List SyntaxTree}
      {waiting : List Located} :
    Awaits .product beside ts operands waiting → Awaits .factor beside ts operands waiting
  | scaled {beside : Bool} {ts us : List Token} {u : SyntaxTree} {operands : List SyntaxTree}
      {waiting : List Located} {sign : Token} {position : Nat} :
    Awaits .product beside ts operands waiting → Derives .product us u → sign.Scales →
      Awaits .factor false (ts ++ us ++ [sign]) (u :: operands) (⟨position, sign⟩ :: waiting)
  | juxtaposed {beside : Bool} {ts us : List Token} {u : SyntaxTree} {operands : List SyntaxTree}
      {waiting : List Located} {position : Nat} :
    Awaits .product beside ts operands waiting → Derives .product us u →
      Awaits .factor true (ts ++ us) (u :: operands) (⟨position, .binary "*"⟩ :: waiting)
  | negated {ts : List Token} {operands : List SyntaxTree} {waiting : List Located}
      {position : Nat} :
    Awaits .factor false ts operands waiting →
      Awaits .factor false (ts ++ [.unary "-"]) operands (⟨position, .unary "-"⟩ :: waiting)
  | power {beside : Bool} {ts us : List Token} {u : SyntaxTree} {operands : List SyntaxTree}
      {waiting : List Located} {position : Nat} :
    Awaits .factor beside ts operands waiting → Derives .primary us u →
      (beside = true → us.head?.any Token.juxtaposes = true) →
      Awaits .factor false (ts ++ us ++ [.binary "^"]) (u :: operands)
        (⟨position, .binary "^"⟩ :: waiting)

namespace Reading

/-- The operators that wait last settle, and the tokens end with the part that is
left then, a part of a kind that was due. -/
inductive Completes (category : Category) (n : Nat) (ts : List Token)
    (operands : List SyntaxTree) (waiting : List Located) : Prop where
  | intro {beside : Bool} {front part : List Token} {t : SyntaxTree} {rest : List SyntaxTree}
      {pending below : List Located} :
    Awaits category beside front rest below → Derives category part t → front ++ part = ts →
      pending ++ below = waiting → Settles n pending operands (t :: rest) →
      Completes category n ts operands waiting

end Reading

namespace Awaits

open Reading

variable {category : Category} {beside : Bool} {ts us : List Token} {u : SyntaxTree}
  {operands : List SyntaxTree} {waiting : List Located}

/-- What waits is weaker than the operators of the part that is due. -/
theorem bounded (h : Awaits category beside ts operands waiting) :
    Below category.bound waiting := by
  induction h with
  | start => exact below_nil
  | group | call => exact below_opening
  | product _ ih | factor _ ih => exact ih.mono (by decide)
  | @added _ _ _ _ _ _ _ position _ _ hsign =>
    obtain ⟨op, hop, hprecedence, -⟩ := hsign.operator?
    refine below_operator position hop ?_ (hprecedence ▸ (by decide : 2 < 3))
    cases hsign <;> simp
  | @scaled _ _ _ _ _ _ _ position _ _ hsign =>
    obtain ⟨op, hop, hprecedence, -⟩ := hsign.operator?
    refine below_operator position hop ?_ (hprecedence ▸ (by decide : 3 < 6))
    cases hsign <;> simp
  | juxtaposed => exact below_operator _ rfl (by simp) (by decide)
  | negated => exact below_operator _ Token.operator?_negation (by simp) (by decide)
  | power => exact below_operator _ Token.operator?_caret (by simp) (by decide)

end Awaits

namespace Reading

variable {category : Category} {m n position : Nat} {beside : Bool} {ts us : List Token}
  {token : Token} {op : Operator} {t u : SyntaxTree} {operands rest : List SyntaxTree}
  {waiting : List Located}

/-- One more operator that waits completes the part as well, if it is not too weak for its
kind. -/
theorem Completes.cons (h : Completes category n ts rest waiting)
    (hop : token.operator? = some op) (hle : n ≤ op.precedence)
    (hreduce : reduce ⟨position, token⟩ operands = .ok rest) :
    Completes category n ts operands (⟨position, token⟩ :: waiting) := by
  obtain ⟨hawaits, hpart, hts, hwaiting, hsettles⟩ := h
  exact ⟨hawaits, hpart, hts, congrArg (_ :: ·) hwaiting, .cons hop hle hreduce hsettles⟩

/-- What tokens start with does not depend on what follows. -/
theorem head?_any_append {vs : List Token} (h : us.head?.any Token.juxtaposes = true) :
    (us ++ vs).head?.any Token.juxtaposes = true := by
  cases us with
  | nil => cases h
  | cons first rest => exact h

/-- A factor that has just ended completes a product. -/
theorem completes_product : ∀ {beside : Bool} {ts us : List Token} {u : SyntaxTree}
    {operands : List SyntaxTree} {waiting : List Located},
    Awaits .factor beside ts operands waiting → Derives .factor us u →
      (beside = true → us.head?.any Token.juxtaposes = true) →
      Completes .product 3 (ts ++ us) (u :: operands) waiting
  | _, _, _, _, _, _, .factor h, hu, _ => ⟨h, .factor hu, rfl, List.nil_append _, .nil⟩
  | _, _, _, _, _, _, .scaled h ht hsign, hu, _ => by
    obtain ⟨op, hop, hprecedence, -, harity⟩ := hsign.operator?
    exact .cons ⟨h, .scaled ht hsign hu, by simp, List.nil_append _, .nil⟩ hop
      (Nat.le_of_eq hprecedence.symm) (reduce_binary hop harity)
  | _, _, _, _, _, _, .juxtaposed h ht, hu, hbeside =>
    .cons ⟨h, .juxtaposed ht hu (hbeside rfl), by simp, List.nil_append _, .nil⟩ rfl
      (Nat.le_refl 3) (reduce_binary rfl rfl)
  | _, _, _, _, _, _, .negated h, hu, _ => by
    have hrest := completes_product h (.negated hu) (by simp)
    rw [List.append_assoc, List.singleton_append]
    exact hrest.cons Token.operator?_negation (by decide) (reduce_unary rfl rfl)
  | _, _, _, _, _, _, .power h ht hbeside, hu, _ => by
    have hrest := completes_product h (.power ht hu) fun hb => head?_any_append (hbeside hb)
    rw [List.append_assoc _ _ [_], List.append_assoc, List.append_assoc]
    exact hrest.cons Token.operator?_caret (by decide) (reduce_binary rfl rfl)

/-- A product that has just ended completes a sum. -/
theorem completes_sum (h : Awaits .product beside ts operands waiting)
    (hu : Derives .product us u) : Completes .sum 2 (ts ++ us) (u :: operands) waiting := by
  cases h with
  | product h => exact ⟨h, .product hu, rfl, List.nil_append _, .nil⟩
  | added h ht hsign =>
    obtain ⟨op, hop, hprecedence, -, harity⟩ := hsign.operator?
    exact .cons ⟨h, .added ht hsign hu, by simp, List.nil_append _, .nil⟩ hop
      (Nat.le_of_eq hprecedence.symm) (reduce_binary hop harity)

/-- A product completes a sum too: nothing of a sum is left to settle. -/
theorem Completes.sum (h : Completes .product 3 ts operands waiting) :
    Completes .sum 2 ts operands waiting := by
  obtain ⟨hawaits, hpart, rfl, rfl, hsettles⟩ := h
  obtain ⟨hawaits', hpart', hts, rfl, hsettles'⟩ := completes_sum hawaits hpart
  exact ⟨hawaits', hpart', hts, List.append_assoc _ _ _,
    (hsettles.mono (by decide)).append hsettles'⟩

/-- A sign that associates to the left finds the part that it belongs behind. -/
theorem Completes.reduceBefore (h : Completes category category.bound ts operands waiting)
    (hleft : op.associativity = .left) (hprecedence : op.precedence = category.bound) :
    ∃ beside front part t rest below, Awaits category beside front rest below ∧
      Derives category part t ∧ front ++ part = ts ∧
      Reading.reduceBefore op operands waiting = .ok (t :: rest, below) := by
  obtain ⟨hawaits, hpart, hts, rfl, hsettles⟩ := h
  refine ⟨_, _, _, _, _, _, hawaits, hpart, hts, ?_⟩
  rw [hsettles.reduceBefore fun other hle => Operator.goesBefore_of_left hleft (hprecedence ▸ hle)]
  exact reduceBefore_stays fun top hmem other hother =>
    Operator.not_goesBefore_of_lt (hprecedence ▸ (hawaits.bounded top hmem).2 other hother)

/-- A closing parenthesis and the end of the text find the part in front of them. -/
theorem Completes.settled (h : Completes category n ts operands waiting) :
    ∃ beside front part t rest below, Awaits category beside front rest below ∧
      Derives category part t ∧ front ++ part = ts ∧
      (∀ position, reduceGroup position operands waiting = reduceGroup position (t :: rest) below) ∧
      reduceAll operands waiting = reduceAll (t :: rest) below := by
  obtain ⟨hawaits, hpart, hts, rfl, hsettles⟩ := h
  exact ⟨_, _, _, _, _, _, hawaits, hpart, hts, fun _ => hsettles.reduceGroup, hsettles.reduceAll⟩

/-- What has been read when a token is due next: an operand or a token in front of
one is due, the name of a call waits for its parenthesis, or an operand has just
ended. -/
inductive Reached : List Token → Reading → Prop where
  | due {ts : List Token} {operands : List SyntaxTree} {waiting : List Located} :
    Awaits .factor false ts operands waiting → Reached ts ⟨operands, waiting, true⟩
  | called {beside : Bool} {ts : List Token} {operands : List SyntaxTree}
      {waiting : List Located} {name : String} {position : Nat} :
    Awaits .factor beside ts operands waiting →
      Reached (ts ++ [.call name]) ⟨operands, ⟨position, .call name⟩ :: waiting, true⟩
  | ended {beside : Bool} {ts us : List Token} {u : SyntaxTree} {operands : List SyntaxTree}
      {waiting : List Located} :
    Awaits .factor beside ts operands waiting → Derives .primary us u →
      (beside = true → us.head?.any Token.juxtaposes = true) →
      Reached (ts ++ us) ⟨u :: operands, waiting, false⟩

/-- At the beginning a formula is due, which is a sum that starts with a factor. -/
theorem reached_start : Reached [] .start := .due (.factor (.product .start))

variable {next : Located} {reading after : Reading}

/-- A token where a factor is due. -/
theorem Reached.of_step_due (h : Awaits .factor beside ts operands waiting)
    (hbeside : beside = true → next.token.juxtaposes = true)
    (hunary : ∀ symbol, next.token = .unary symbol → symbol = "-")
    (hstep : step ⟨operands, waiting, true⟩ next = .ok after) :
    Reached (ts ++ [next.token]) after := by
  obtain ⟨position, token⟩ := next
  cases token with
  | number _ | argument _ | constant _ =>
    cases hstep
    exact .ended h (.leaf rfl) hbeside
  | call name =>
    cases hstep
    exact .called h
  | opening =>
    cases hstep
    exact .due (.factor (.product (.group h)))
  | unary symbol =>
    obtain rfl := hunary symbol rfl
    cases hstep
    cases beside with
    | false => exact .due (.negated h)
    | true => cases hbeside rfl
  | binary _ | closing | stray _ => cases hstep

/-- Behind the name of a call its parenthesis is read, and the argument is due then. -/
theorem Reached.of_step_called {name : String}
    (h : Awaits .factor beside ts operands waiting) (hnext : next.token = .opening)
    (hstep : step ⟨operands, ⟨position, .call name⟩ :: waiting, true⟩ next = .ok after) :
    Reached (ts ++ [.call name] ++ [next.token]) after := by
  obtain ⟨opened, token⟩ := next
  obtain rfl := hnext
  cases hstep
  exact .due (.factor (.product (.call h)))

/-- The sign of an operator can be read behind an operand. -/
theorem Reached.exists_binary {symbol : String} (h : Awaits .factor beside ts operands waiting)
    (hu : Derives .primary us u) (hbeside : beside = true → us.head?.any Token.juxtaposes = true)
    (hsymbol : (Token.binary symbol).Adds ∨ (Token.binary symbol).Scales ∨ symbol = "^")
    (position : Nat) :
    ∃ after, binary ⟨u :: operands, waiting, false⟩ position (.binary symbol) = .ok after ∧
      Reached (ts ++ us ++ [.binary symbol]) after := by
  have hproduct := completes_product h (.primary hu) hbeside
  rcases hsymbol with hsign | hsign | rfl
  · obtain ⟨op, hop, hprecedence, hleft, -⟩ := hsign.operator?
    obtain ⟨_, front, part, t, rest, below, hawaits, hpart, hts, hreduce⟩ :=
      hproduct.sum.reduceBefore hleft hprecedence
    refine ⟨_, binary_eq hop hreduce, ?_⟩
    rw [← hts]
    exact .due (.factor (.added hawaits hpart hsign))
  · obtain ⟨op, hop, hprecedence, hleft, -⟩ := hsign.operator?
    obtain ⟨_, front, part, t, rest, below, hawaits, hpart, hts, hreduce⟩ :=
      hproduct.reduceBefore hleft hprecedence
    refine ⟨_, binary_eq hop hreduce, ?_⟩
    rw [← hts]
    exact .due (.scaled hawaits hpart hsign)
  · have hreduce : reduceBefore Token.caret (u :: operands) waiting =
        .ok (u :: operands, waiting) :=
      reduceBefore_stays fun top hmem other hother =>
        Operator.not_goesBefore_of_right rfl
          (Nat.le_of_lt_succ ((h.bounded top hmem).2 other hother))
    exact ⟨_, binary_eq Token.operator?_caret hreduce, .due (.power h hu hbeside)⟩

/-- The sign of a product can be implied behind an operand. -/
theorem exists_implied (h : Awaits .factor beside ts operands waiting)
    (hu : Derives .primary us u) (hbeside : beside = true → us.head?.any Token.juxtaposes = true)
    (position : Nat) :
    ∃ rest below, binary ⟨u :: operands, waiting, false⟩ position (.binary "*") =
        .ok ⟨rest, below, true⟩ ∧ Awaits .factor true (ts ++ us) rest below := by
  obtain ⟨op, hop, hprecedence, hleft, -⟩ := Token.Scales.times.operator?
  obtain ⟨_, front, part, t, rest, below, hawaits, hpart, hts, hreduce⟩ :=
    (completes_product h (.primary hu) hbeside).reduceBefore hleft hprecedence
  refine ⟨_, _, binary_eq hop hreduce, ?_⟩
  rw [← hts]
  exact .juxtaposed hawaits hpart

/-- A closing parenthesis that is read closes a group, which is then a primary part by
itself, or the argument of a call. -/
theorem Reached.of_step_closing (h : Awaits .factor beside ts operands waiting)
    (hu : Derives .primary us u) (hbeside : beside = true → us.head?.any Token.juxtaposes = true)
    (hstep : closing ⟨u :: operands, waiting, false⟩ position = .ok after) :
    Reached (ts ++ us ++ [.closing]) after := by
  obtain ⟨_, front, part, t, rest, below, hawaits, hpart, hts, hreduce, -⟩ :=
    (completes_product h (.primary hu) hbeside).sum.settled
  replace hreduce := hreduce position
  rw [← hts]
  cases hawaits with
  | start =>
    simp only [closing, Bool.false_eq_true, if_false, hreduce] at hstep
    cases hstep
  | group hawaits =>
    rw [closing_group hreduce fun top hmem => (hawaits.bounded top hmem).1] at hstep
    cases hstep
    have hgroup := Reached.ended hawaits (.group hpart) fun _ => rfl
    simpa using hgroup
  | @call _ _ _ _ name _ _ hawaits =>
    rw [closing_call hreduce] at hstep
    cases hstep
    have hcall := Reached.ended hawaits (@Derives.call name _ _ hpart) fun _ => rfl
    simpa using hcall

/-- Behind an operand a sign between operands, an implied product or a closing parenthesis
can be read, and each leads to a state of the same kind. -/
theorem Reached.of_step_ended (h : Awaits .factor beside ts operands waiting)
    (hu : Derives .primary us u) (hbeside : beside = true → us.head?.any Token.juxtaposes = true)
    (hunary : ∀ symbol, next.token = .unary symbol → symbol = "-")
    (hbinary : ∀ symbol, next.token = .binary symbol →
      (Token.binary symbol).Adds ∨ (Token.binary symbol).Scales ∨ symbol = "^")
    (hstep : step ⟨u :: operands, waiting, false⟩ next = .ok after) :
    Reached (ts ++ us ++ [next.token]) after := by
  cases hjuxtaposes : next.token.juxtaposes with
  | true =>
    obtain ⟨rest, below, hbinary, hawaits⟩ := exists_implied h hu hbeside next.position
    rw [step_juxtaposes rfl hjuxtaposes, hbinary] at hstep
    exact .of_step_due hawaits (fun _ => hjuxtaposes) hunary hstep
  | false =>
    obtain ⟨position, token⟩ := next
    cases token with
    | binary symbol =>
      obtain ⟨last, hlast, hreached⟩ :=
        Reached.exists_binary h hu hbeside (hbinary symbol rfl) position
      obtain rfl := Except.ok.inj (hlast.symm.trans hstep)
      exact hreached
    | closing => exact .of_step_closing h hu hbeside hstep
    | number _ | unary _ | stray _ => cases hstep
    | argument _ | constant _ | call _ | opening => cases hjuxtaposes

/-- Reading a token of a text goes on with a start of a formula. -/
theorem Reached.step {tokens more : List Token} (htyped : Typed tokens)
    (htokens : tokens = ts ++ next.token :: more) (h : Reached ts reading)
    (hstep : reading.step next = .ok after) : Reached (ts ++ [next.token]) after := by
  have hmem : next.token ∈ tokens := by simp [htokens]
  have hunary (symbol : String) (heq : next.token = .unary symbol) : symbol = "-" :=
    htyped.unary symbol (heq ▸ hmem)
  have hbinary (symbol : String) (heq : next.token = .binary symbol) :
      (Token.binary symbol).Adds ∨ (Token.binary symbol).Scales ∨ symbol = "^" :=
    htyped.binary symbol (heq ▸ hmem)
  cases h with
  | due hawaits => exact .of_step_due hawaits (by simp) hunary hstep
  | called hawaits =>
    have hnext := htyped.call _ _ (next.token :: more) (by rw [htokens, List.append_assoc]; rfl)
    exact .of_step_called hawaits (Option.some.inj hnext) hstep
  | ended hawaits hu hbeside => exact .of_step_ended hawaits hu hbeside hunary hbinary hstep

/-- Tokens that are read without an error lead from one state of this kind to another, by
induction on the tokens. -/
theorem Reached.run {tokens more : List Token} (htyped : Typed tokens) {located : List Located}
    (htokens : tokens = ts ++ (located.map Located.token ++ more)) (h : Reached ts reading)
    (hrun : located.foldlM Reading.step reading = .ok after) :
    Reached (ts ++ located.map Located.token) after := by
  induction located generalizing ts reading with
  | nil =>
    cases hrun
    rwa [List.map_nil, List.append_nil]
  | cons next located ih =>
    rw [List.foldlM_cons] at hrun
    obtain ⟨middle, hstep, hrest⟩ := bind_eq_ok_iff.mp hrun
    rw [List.map_cons, List.append_cons]
    refine ih ?_ (h.step htyped htokens hstep) hrest
    rw [htokens, List.append_assoc]
    rfl

/-- A formula that can end has a tree by the grammar. -/
theorem Reached.finish {tokens : List Token} (h : Reached tokens reading)
    (hfinish : reading.finish position = .ok t) : Derives .sum tokens t := by
  cases h with
  | due _ | called _ =>
    simp only [Reading.finish, if_true] at hfinish
    split at hfinish <;> cases hfinish
  | ended hawaits hu hbeside =>
    obtain ⟨_, front, part, v, rest, below, hsum, hpart, hts, -, hreduce⟩ :=
      (completes_product hawaits (.primary hu) hbeside).sum.settled
    simp only [Reading.finish, Bool.false_eq_true, if_false, hreduce] at hfinish
    cases hsum with
    | start =>
      cases hfinish
      rw [← hts]
      exact hpart
    | group _ | call _ => cases hfinish

end Reading

namespace SyntaxTree

variable {text : String} {t u : SyntaxTree}

/-- The tokens of a text are such as can be typed. -/
theorem typed_tokens_ofText (text : String) : Typed (Lexed.ofText text).tokens := by
  rw [Lexed.tokens_ofText]
  exact Lexeme.typed_tokensFrom none text.toList

/-- When the first tokens of a text have been read without an error, they are the
start of a formula. -/
theorem reached_of_located {before after : List Located} {reading : Reading}
    (hlocated : (Lexed.ofText text).located = before ++ after)
    (hrun : before.foldlM Reading.step .start = .ok reading) :
    Reading.Reached (before.map Located.token) reading := by
  have htokens : (Lexed.ofText text).tokens =
      [] ++ (before.map Located.token ++ after.map Located.token) := by
    rw [Lexed.tokens, hlocated, List.map_append]
    rfl
  exact Reading.reached_start.run (typed_tokens_ofText text) htokens hrun

/-- What is read from a text is the tree of a derivation of its tokens. -/
theorem derives_of_ofText (h : ofText text = .ok t) :
    Derives .sum (Lexed.ofText text).tokens t := by
  obtain ⟨reading, hrun, hfinish⟩ := bind_eq_ok_iff.mp h
  exact (reached_of_located (List.append_nil _).symm hrun).finish hfinish

/-- Whatever is derived from the tokens of a text is read from it. -/
theorem ofText_of_derives (h : Derives .sum (Lexed.ofText text).tokens t) :
    ofText text = .ok t := by
  obtain ⟨operands, pending, hread, hsettles⟩ := h.readsAs rfl [] Reading.below_nil
  refine bind_eq_ok_iff.mpr ⟨_, hread, ?_⟩
  simp only [Reading.finish, Bool.false_eq_true, if_false, hsettles.reduceAll]
  rfl

/-- The grammar is not ambiguous: the tokens of a text have one derivation tree
at most. -/
theorem eq_of_derives (ht : Derives .sum (Lexed.ofText text).tokens t)
    (hu : Derives .sum (Lexed.ofText text).tokens u) : t = u :=
  Except.ok.inj ((ofText_of_derives ht).symm.trans (ofText_of_derives hu))

/-- A text is accepted exactly if its tokens are a sum by the grammar, and its
syntax tree is the tree of their derivation, which is the only one. -/
theorem ofText_eq_ok_iff_derives (text : String) (t : SyntaxTree) :
    ofText text = .ok t ↔ Derives .sum (Lexed.ofText text).tokens t ∧
      ∀ u, Derives .sum (Lexed.ofText text).tokens u → u = t :=
  ⟨fun h => ⟨derives_of_ofText h, fun _ hu => eq_of_derives hu (derives_of_ofText h)⟩,
    fun h => ofText_of_derives h.1⟩

end SyntaxTree

end FormulaCalculator
