import FormulaCalculator.Proofs.Grouping
import FormulaCalculator.Proofs.Outcome
import FormulaCalculator.Proofs.TreeOrder

/-!
# The postfix order of a well-formed expression

Bringing a well-formed expression into postfix order gives the postfix order of
its tree. The argument follows the tree. While a part of the expression is read,
some of its operators go out and some wait, and those that wait are the end of
the postfix order of the part: they are the operators on its right edge and
those behind its last operand. What waited before is not touched, because it
does not go before the operators on the left edge of the part.
-/

set_option autoImplicit false

namespace FormulaCalculator

namespace Postfix

/-- The tokens that go out while tokens are read, and those that wait after. -/
def consume (waiting : List Token) : List Token → Except CalculationError Step
  | [] => .ok ⟨[], waiting⟩
  | token :: tokens => do
    let s ← step waiting token
    let r ← consume s.waiting tokens
    return ⟨s.out ++ r.out, r.waiting⟩

variable {waiting tokens out : List Token} {token : Token} {s r : Step}

/-- What goes out at the first token goes out before what goes out at the others. -/
theorem consume_cons (hs : step waiting token = .ok s) (hr : consume s.waiting tokens = .ok r) :
    consume waiting (token :: tokens) = .ok ⟨s.out ++ r.out, r.waiting⟩ := by
  simp [consume, hs, hr]

/-- Reading one token is one step. -/
theorem consume_singleton (hs : step waiting token = .ok s) :
    consume waiting [token] = .ok s := by
  simp [consume, hs]

/-- Tokens can be read part by part. -/
theorem consume_append {more : List Token} (hs : consume waiting tokens = .ok s)
    (hr : consume s.waiting more = .ok r) :
    consume waiting (tokens ++ more) = .ok ⟨s.out ++ r.out, r.waiting⟩ := by
  induction tokens generalizing waiting s with
  | nil =>
    cases hs
    exact hr
  | cons token tokens ih =>
    simp only [consume, bind_eq_ok_iff] at hs
    obtain ⟨first, hfirst, rest, hrest, heq⟩ := hs
    cases heq
    rw [List.cons_append, consume_cons hfirst (ih hrest hr), List.append_assoc]

/-- The whole output is what goes out on the way and what waits at the end. -/
theorem arrange_eq_of_consume {out : List Token} (h : consume waiting tokens = .ok s)
    (hflush : flush s.waiting = .ok out) : arrange waiting tokens = .ok (s.out ++ out) := by
  induction tokens generalizing waiting s with
  | nil =>
    cases h
    exact hflush
  | cons token tokens ih =>
    simp only [consume, bind_eq_ok_iff] at h
    obtain ⟨first, hfirst, rest, hrest, heq⟩ := h
    cases heq
    simp [arrange, hfirst, ih hrest hflush]

/-- A token gives out and lets wait nothing but what waited and itself. -/
theorem mem_of_step (h : step waiting token = .ok s) :
    ∀ t ∈ s.out ++ s.waiting, t ∈ waiting ∨ t = token := by
  intro t ht
  cases token with
  | number _ | argument _ | constant _ | opening | unary _ | call _ =>
    cases h
    simpa [or_comm] using ht
  | stray _ => cases h
  | binary symbol =>
    cases hop : (Token.binary symbol).operator? with
    | none =>
      simp only [step, hop] at h
      cases h
    | some op =>
      simp only [step, hop] at h
      obtain ⟨yielded, hyield, rfl⟩ := map_eq_ok_iff.mp h
      rw [← out_append_waiting_of_yieldTo hyield]
      simp only [List.mem_append, List.mem_cons] at ht ⊢
      rcases ht with hout | rfl | hwaiting
      · exact .inl (.inl hout)
      · exact .inr rfl
      · exact .inl (.inr hwaiting)
  | closing =>
    obtain ⟨closed, hclose, rfl⟩ := map_eq_ok_iff.mp h
    obtain ⟨hsplit, -⟩ := closeGroup_eq_ok_iff.mp hclose
    rw [out_append_waiting_completeGroup] at ht
    rw [hsplit]
    simp only [List.mem_append, List.mem_cons] at ht ⊢
    rcases ht with hout | hwaiting
    · exact .inl (.inl hout)
    · exact .inl (.inr (.inr hwaiting))

/-- No token is made up on the way to postfix order. -/
theorem mem_of_arrange (h : arrange waiting tokens = .ok out) :
    ∀ t ∈ out, t ∈ waiting ∨ t ∈ tokens := by
  induction tokens generalizing waiting out with
  | nil =>
    obtain ⟨rfl, -⟩ := flush_eq_ok_iff.mp h
    exact fun t ht => .inl ht
  | cons token tokens ih =>
    simp only [arrange, bind_eq_ok_iff] at h
    obtain ⟨s, hs, rest, hrest, heq⟩ := h
    cases heq
    have hstep := mem_of_step hs
    intro t ht
    rcases List.mem_append.mp ht with hout | hmem
    · exact (hstep t (List.mem_append_left _ hout)).imp_right fun heq => by simp [heq]
    · rcases ih hrest t hmem with hwaiting | htokens
      · exact (hstep t (List.mem_append_right _ hwaiting)).imp_right fun heq => by simp [heq]
      · exact .inr (List.mem_cons_of_mem _ htokens)

/-- The operator on top goes out if it goes before the one that comes, and else nothing
does. -/
theorem yieldTo_cons {op other : Operator} (h : token.operator? = some other) :
    yieldTo op (token :: waiting) =
      if other.goesBefore op then (yieldTo op waiting).map (Step.after token)
      else .ok ⟨[], token :: waiting⟩ := by
  cases token with
  | opening => cases h
  | _ => simp only [yieldTo, h]

/-- A binary operator takes out those operators that go before it, down to what
stays. -/
theorem yieldTo_append {op : Operator} {pending : List Token}
    (hpending : ∀ token ∈ pending, ∃ other, token.operator? = some other ∧
      other.goesBefore op = true)
    (hstay : yieldTo op waiting = .ok ⟨[], waiting⟩) :
    yieldTo op (pending ++ waiting) = .ok ⟨pending, waiting⟩ := by
  induction pending with
  | nil => exact hstay
  | cons top pending ih =>
    obtain ⟨⟨other, hop, hbefore⟩, hpending⟩ := List.forall_mem_cons.mp hpending
    rw [List.cons_append, yieldTo_cons hop, if_pos hbefore, ih hpending]
    rfl

/-- No parenthesis is among operators of the table. -/
theorem opening_not_mem {pending : List Token}
    (h : ∀ token ∈ pending, ∃ op, token.operator? = some op) : .opening ∉ pending := by
  intro hmem
  obtain ⟨op, hop⟩ := h _ hmem
  cases hop

/-- An operand goes out at once. -/
theorem step_operand (h : token.isOperand = true) :
    step waiting token = .ok ⟨[token], waiting⟩ := by
  cases token <;> first | rfl | cases h

/-- An opening parenthesis waits. -/
theorem step_opening : step waiting .opening = .ok ⟨[], .opening :: waiting⟩ := rfl

/-- An operator in front of its operand waits and brings nothing out. -/
theorem step_leads {op : Operator} (h : token.Leads op) :
    step waiting token = .ok ⟨[], token :: waiting⟩ := by
  cases h <;> rfl

/-- An operator behind its operand waits and brings nothing out: what it applies to is out
already. -/
theorem step_trails {op : Operator} (h : token.Trails op) :
    step waiting token = .ok ⟨[], token :: waiting⟩ := by
  cases h
  rfl

/-- An operator between operands brings out what goes before it and waits. -/
theorem step_joins {op : Operator} {pending : List Token} (h : token.Joins op)
    (hyield : yieldTo op (pending ++ waiting) = .ok ⟨pending, waiting⟩) :
    step (pending ++ waiting) token = .ok ⟨pending, token :: waiting⟩ := by
  cases h with
  | binary hfind => simp [step, Token.operator?, hfind, hyield]

/-- A closing parenthesis brings out all that waits above the opening one, and then the
operator in front of the group. -/
theorem step_closing {pending : List Token} (h : .opening ∉ pending) :
    step (pending ++ .opening :: waiting) .closing = .ok (completeGroup ⟨pending, waiting⟩) := by
  have hclose : closeGroup (pending ++ .opening :: waiting) = .ok ⟨pending, waiting⟩ :=
    closeGroup_eq_ok_iff.mpr ⟨rfl, h⟩
  simp [step, hclose]

/-- An operator directly in front of a group goes out with it. -/
theorem completeGroup_leads {op : Operator} {out : List Token} (h : token.Leads op) :
    completeGroup ⟨out, token :: waiting⟩ = ⟨out ++ [token], waiting⟩ := by
  cases h <;> rfl

/-- What waits is not touched by a part of an expression: not by the operators
on its left edge, and not by a group at its start. -/
structure Rests (waiting tokens : List Token) (left : List Operator) : Prop where
  stays : ∀ op ∈ left, yieldTo op waiting = .ok ⟨[], waiting⟩
  group : tokens.head? = some .opening → ∀ out, completeGroup ⟨out, waiting⟩ = ⟨out, waiting⟩

/-- A parenthesis that waits on top is touched by nothing inside the group. -/
theorem rests_opening (waiting tokens : List Token) (left : List Operator) :
    Rests (.opening :: waiting) tokens left :=
  ⟨fun _ _ => rfl, fun _ _ => rfl⟩

/-- Where nothing waits, nothing is touched. -/
theorem rests_nil (tokens : List Token) (left : List Operator) : Rests [] tokens left :=
  ⟨fun _ _ => rfl, fun _ _ => rfl⟩

/-- An operator on top that does not go before another one keeps everything waiting. -/
theorem stays_cons {op other : Operator} (h : token.operator? = some other)
    (hlow : other.goesBefore op = false) :
    yieldTo op (token :: waiting) = .ok ⟨[], token :: waiting⟩ := by
  rw [yieldTo_cons h, hlow]
  rfl

/-- A token that waits after a part of an expression: on the right edge of the
part, or behind its last operand. -/
def Pends (right : List Operator) (token : Token) : Prop :=
  ∃ op, token.operator? = some op ∧ (op ∈ right ∨ token.Trails op)

/-- What waits after a part goes before the operator behind the part, if the right edge of
the part does. -/
theorem Pends.goesBefore {right : List Operator} {joint : Token} {op : Operator}
    (h : Pends right token) (hjoint : joint.Joins op)
    (hright : ∀ other ∈ right, other.goesBefore op = true) :
    ∃ other, token.operator? = some other ∧ other.goesBefore op = true := by
  obtain ⟨other, hop, hmem | htrails⟩ := h
  · exact ⟨other, hop, hright other hmem⟩
  · exact ⟨other, hop, htrails.goesBefore hjoint⟩

/-- The table has one operator that is written behind its operand. -/
theorem eq_of_trails {op op' : Operator} {token' : Token} (h : token.Trails op)
    (h' : token'.Trails op') : token = token' := by
  have htable : ∀ op ∈ Operator.table, op.followsOperand = true → op.symbol = "x²" := by
    decide
  cases h with
  | unary hfind hfollows =>
    cases h' with
    | unary hfind' hfollows' =>
      obtain ⟨hmem, hsymbol, -⟩ := Operator.mem_of_find? hfind
      obtain ⟨hmem', hsymbol', -⟩ := Operator.mem_of_find? hfind'
      rw [← hsymbol, ← hsymbol', htable _ hmem hfollows, htable _ hmem' hfollows']

/-- Operators behind an operand wait in the opposite order, which is no other
order because they are all alike. -/
theorem cons_eq_append_of_trails {pending : List Token} {op : Operator} (h : token.Trails op)
    (hpending : ∀ other ∈ pending, Pends [] other) : token :: pending = pending ++ [token] := by
  have hall : ∀ other ∈ pending, other = token := by
    intro other hmem
    obtain ⟨op', -, hmem' | htrails⟩ := hpending other hmem
    · cases hmem'
    · exact eq_of_trails htrails h
  rw [List.eq_replicate_of_mem hall, ← List.replicate_succ, List.replicate_succ']

/-- Reading an expression puts out the front of the postfix order of its tree,
and what waits then on top of what waited before is the rest of it. -/
theorem consume_grouping {ts : List Token} {left right : List Operator} {t : SyntaxTree}
    (h : Grouping ts left right t) (waiting : List Token) (hrest : Rests waiting ts left) :
    ∃ out pending, consume waiting ts = .ok ⟨out, pending ++ waiting⟩ ∧
      out ++ pending = t.postorder ∧ ∀ token ∈ pending, Pends right token := by
  induction h generalizing waiting with
  | @leaf token htoken =>
    exact ⟨[token], [], consume_singleton (step_operand htoken), rfl, by simp⟩
  | @group ts left right t _ ih =>
    obtain ⟨out, pending, hread, horder, hpends⟩ := ih _ (rests_opening waiting ts left)
    have hopen : .opening ∉ pending :=
      opening_not_mem fun token hmem => (hpends token hmem).imp fun op hop => hop.1
    -- The parenthesis keeps the group apart from what waited before it.
    have hclose := @step_closing waiting _ hopen
    rw [hrest.group rfl] at hclose
    refine ⟨out ++ pending, [], ?_, by simpa using horder, by simp⟩
    exact consume_cons step_opening (consume_append hread (consume_singleton hclose))
  | @applied p op ts left right t hp _ ih =>
    obtain ⟨out, pending, hread, horder, hpends⟩ := ih _ (rests_opening (p :: waiting) ts left)
    have hopen : .opening ∉ pending :=
      opening_not_mem fun token hmem => (hpends token hmem).imp fun op hop => hop.1
    have hclose := @step_closing (p :: waiting) _ hopen
    rw [completeGroup_leads hp] at hclose
    refine ⟨out ++ (pending ++ [p]), [], ?_, ?_, by simp⟩
    · exact consume_cons (step_leads hp)
        (consume_cons step_opening (consume_append hread (consume_singleton hclose)))
    · rw [List.append_nil, ← List.append_assoc, horder]
      rfl
  | @trailing q op ts t _ hq ih =>
    have hrest' : Rests waiting ts [] := by
      refine ⟨by simp, fun hhead => hrest.group ?_⟩
      rw [List.head?_append, hhead]
      rfl
    obtain ⟨out, pending, hread, horder, hpends⟩ := ih waiting hrest'
    refine ⟨out, q :: pending, ?_, ?_, ?_⟩
    · have hread' := consume_append hread (consume_singleton (step_trails hq))
      simpa using hread'
    · rw [cons_eq_append_of_trails hq hpends, ← List.append_assoc, horder]
      rfl
    · exact List.forall_mem_cons.mpr ⟨⟨op, hq.operator?, .inr hq⟩, hpends⟩
  | @leading p op ts left right t hp _ hhead hleft ih =>
    have hrest' : Rests (p :: waiting) ts left :=
      ⟨fun other hmem => stays_cons hp.operator? (hleft other hmem), fun h => absurd h hhead⟩
    obtain ⟨out, pending, hread, horder, hpends⟩ := ih (p :: waiting) hrest'
    refine ⟨out, pending ++ [p], ?_, ?_, ?_⟩
    · rw [List.append_assoc]
      exact consume_cons (step_leads hp) hread
    · rw [← List.append_assoc, horder]
      rfl
    · refine List.forall_mem_append.mpr ⟨fun token hmem => ?_, ?_⟩
      · obtain ⟨other, hop, hother⟩ := hpends token hmem
        exact ⟨other, hop, hother.imp_left (List.mem_cons_of_mem op)⟩
      · exact List.forall_mem_singleton.mpr ⟨op, hp.operator?, .inl List.mem_cons_self⟩
  | @joined joint op ts us left right left' right' t u ht hjoint _ hright hleft ih ih' =>
    have hstay := hrest.stays op List.mem_cons_self
    have hrestLeft : Rests waiting ts left := by
      refine ⟨fun other hmem => hrest.stays other (List.mem_cons_of_mem op hmem), fun hhead => ?_⟩
      exact hrest.group ((ht.head?_append _).trans hhead)
    obtain ⟨out, pending, hread, horder, hpends⟩ := ih waiting hrestLeft
    -- The sign brings out what waits of its left operand; what waited before that stays.
    have hyield := yieldTo_append
      (fun token hmem => (hpends token hmem).goesBefore hjoint hright) hstay
    have hrestRight : Rests (joint :: waiting) us left' := by
      refine ⟨fun other hmem => stays_cons hjoint.operator? (hleft other hmem), fun _ _ => ?_⟩
      cases hjoint
      rfl
    obtain ⟨out', pending', hread', horder', hpends'⟩ := ih' (joint :: waiting) hrestRight
    refine ⟨out ++ (pending ++ out'), pending' ++ [joint], ?_, ?_, ?_⟩
    · rw [List.append_assoc]
      exact consume_append hread (consume_cons (step_joins hjoint hyield) hread')
    · have hsplit : out ++ (pending ++ out') ++ (pending' ++ [joint]) =
          (out ++ pending) ++ (out' ++ pending') ++ [joint] := by
        simp
      rw [hsplit, horder, horder']
      rfl
    · refine List.forall_mem_append.mpr ⟨fun token hmem => ?_, ?_⟩
      · obtain ⟨other, hop, hother⟩ := hpends' token hmem
        exact ⟨other, hop, hother.imp_left (List.mem_cons_of_mem op)⟩
      · exact List.forall_mem_singleton.mpr ⟨op, hjoint.operator?, .inl List.mem_cons_self⟩

/-- The postfix order of an expression is that of its tree. -/
theorem ofTokens_eq_of_isTreeOf {ts : List Token} {t : SyntaxTree} (h : IsTreeOf t ts) :
    ofTokens ts = .ok ⟨t.postorder⟩ := by
  obtain ⟨left, right, h⟩ := h
  obtain ⟨out, pending, hread, horder, hpends⟩ := consume_grouping h [] (rests_nil ts left)
  have hopen : .opening ∉ pending :=
    opening_not_mem fun token hmem => (hpends token hmem).imp fun op hop => hop.1
  have hflush : flush (pending ++ []) = .ok pending :=
    flush_eq_ok_iff.mpr ⟨(List.append_nil _).symm, by simpa using hopen⟩
  rw [ofTokens, arrange_eq_of_consume hread hflush, ← horder]
  rfl

end Postfix

/-- The tree of an expression is what the table says of its tokens. -/
theorem Grouping.exists_operatorTree {ts : List Token} {left right : List Operator}
    {t : SyntaxTree} (h : Grouping ts left right t) :
    ∃ tree : OperatorTree, tree.Sound ∧ tree.syntaxTree = t := by
  induction h with
  | @leaf token htoken =>
    have hop : token.operator? = none := by
      cases token <;> first | rfl | cases htoken
    exact ⟨.leaf token, .leaf hop, rfl⟩
  | group _ ih => exact ih
  | applied hp _ ih | leading hp _ _ _ ih =>
    obtain ⟨tree, hsound, rfl⟩ := ih
    exact ⟨.unary _ _ tree, .unary hp.operator? hp.arity hsound, rfl⟩
  | trailing _ hq ih =>
    obtain ⟨tree, hsound, rfl⟩ := ih
    exact ⟨.unary _ _ tree, .unary hq.operator? hq.arity hsound, rfl⟩
  | joined _ hjoint _ _ _ ih ih' =>
    obtain ⟨left, hleft, rfl⟩ := ih
    obtain ⟨right, hright, rfl⟩ := ih'
    exact ⟨.binary _ _ left right, .binary hjoint.operator? hjoint.arity hleft hright, rfl⟩

/-- An expression has no more than one tree. -/
theorem IsTreeOf.unique {ts : List Token} {t u : SyntaxTree} (ht : IsTreeOf t ts)
    (hu : IsTreeOf u ts) : t = u := by
  have horder : t.postorder = u.postorder := by
    have heq := Postfix.ofTokens_eq_of_isTreeOf ht
    rw [Postfix.ofTokens_eq_of_isTreeOf hu] at heq
    exact (congrArg Postfix.tokens (Except.ok.inj heq)).symm
  obtain ⟨_, _, ht⟩ := ht
  obtain ⟨_, _, hu⟩ := hu
  obtain ⟨tree, htree, rfl⟩ := ht.exists_operatorTree
  obtain ⟨tree', htree', rfl⟩ := hu.exists_operatorTree
  exact congrArg OperatorTree.syntaxTree (htree.postorder_inj htree' horder)

/-- A well-formed expression has exactly one tree, and bringing it into postfix
order succeeds and gives exactly the postfix order of that tree. -/
theorem ofTokens_wellFormed {ts : List Token} (h : WellFormed ts) :
    ∃ t, IsTreeOf t ts ∧ (∀ u, IsTreeOf u ts → u = t) ∧
      Postfix.ofTokens ts = .ok ⟨t.postorder⟩ := by
  obtain ⟨t, ht⟩ := h.exists_tree
  exact ⟨t, ht, fun u hu => hu.unique ht, Postfix.ofTokens_eq_of_isTreeOf ht⟩

/-- The keys of `- sin (√ e) x² ^ - x * π`: operators of all kinds, one of them in
front of a group and one between a power and its exponent. -/
def mixedKeys : List Token :=
  [.unary "-", .call "sin", .opening, .unary "√", .constant "e", .closing, .unary "x²",
    .binary "^", .unary "-", .argument "x", .binary "*", .constant "π"]

/-- The keys are operands with operators between them, in front of them and behind
them. -/
theorem wellFormed_mixedKeys : WellFormed mixedKeys := by
  have hminus : (Token.unary "-").Leads ⟨"-", 5, .right, .unary⟩ := .unary rfl rfl
  have hroot : (Token.unary "√").Leads ⟨"√", 6, .right, .unary⟩ := .unary rfl rfl
  have hsin : (Token.call "sin").Leads ⟨"sin", 7, .right, .unary⟩ := .call rfl
  have hsquare : (Token.unary "x²").Trails ⟨"x²", 6, .left, .unary⟩ := .unary rfl rfl
  have hinner : WellFormed [.unary "√", .constant "e"] :=
    .operand (@WellFormedOperand.leaf [.unary "√"] [] _ (by simpa using ⟨_, hroot⟩) rfl (by simp))
  have hbase : WellFormedOperand
      [.unary "-", .call "sin", .opening, .unary "√", .constant "e", .closing, .unary "x²"] :=
    @WellFormedOperand.group [.unary "-", .call "sin"] [.unary "x²"] _
      (by simpa using ⟨⟨_, hminus⟩, ⟨_, hsin⟩⟩) hinner (by simpa using ⟨_, hsquare⟩)
  have hexponent : WellFormedOperand [.unary "-", .argument "x"] :=
    @WellFormedOperand.leaf [.unary "-"] [] _ (by simpa using ⟨_, hminus⟩) rfl (by simp)
  have hfactor : WellFormedOperand [.constant "π"] :=
    @WellFormedOperand.leaf [] [] _ (by simp) rfl (by simp)
  exact .joined (.joined (.operand hbase) (.binary rfl) hexponent) (.binary rfl) hfactor

/-- The postfix order of expressions with all kinds of operators. -/
theorem ofTokens_wellFormed_mixedKeys :
    WellFormed mixedKeys ∧ ∃ t, IsTreeOf t mixedKeys ∧ (∀ u, IsTreeOf u mixedKeys → u = t) ∧
      Postfix.ofTokens mixedKeys = .ok ⟨t.postorder⟩ :=
  ⟨wellFormed_mixedKeys, ofTokens_wellFormed wellFormed_mixedKeys⟩

end FormulaCalculator
