import FormulaCalculator.Proofs.ParenthesisBalance

/-!
# The order of the tokens that go out

Tokens that are equal are still told apart by their places in the input, so each
token carries its place through the run. Whatever the order of the input, every
token that is no parenthesis goes out once, and none goes out before an operand
that came before it. The operands therefore keep their order, and an operator may
only fall behind.

An operand goes out in the step that reads it, and all that waits came before. So
it is enough that what waits is no operand and is older than the token that is read.
-/

set_option autoImplicit false

namespace FormulaCalculator.Postfix

open Token

/-- A list that is the image of another one up to its order is the image of that
one in some order. -/
theorem exists_map_eq_of_perm {α β : Type} {f : α → β} {images : List β} {items : List α}
    (h : images.Perm (items.map f)) :
    ∃ ordered : List α, ordered.map f = images ∧ ordered.Perm items := by
  generalize hmap : items.map f = mapped at h
  induction h generalizing items with
  | nil => exact ⟨[], rfl, by rw [List.map_eq_nil_iff.mp hmap]⟩
  | cons image _ ih =>
    obtain ⟨item, rest, rfl, rfl, hrest⟩ := List.map_eq_cons_iff.mp hmap
    obtain ⟨ordered, hordered, hperm⟩ := ih hrest
    exact ⟨item :: ordered, by rw [List.map_cons, hordered], hperm.cons item⟩
  | swap first second _ =>
    obtain ⟨item, rest, rfl, rfl, hrest⟩ := List.map_eq_cons_iff.mp hmap
    obtain ⟨item', rest', rfl, rfl, rfl⟩ := List.map_eq_cons_iff.mp hrest
    exact ⟨item' :: item :: rest', rfl, List.Perm.swap _ _ _⟩
  | trans _ _ ih ih' =>
    obtain ⟨between, hbetween, hperm⟩ := ih' hmap
    obtain ⟨ordered, hordered, hperm'⟩ := ih hbetween
    exact ⟨ordered, hordered, hperm'.trans hperm⟩

/-- A token with the place that it has in the input. -/
abbrev Placed : Type := Token × Nat

/-- The tokens with their places that are no parentheses. -/
def placedWithoutParentheses (tokens : List Placed) : List Placed :=
  tokens.filter (!·.1.isParenthesis)

/-- If the later of two tokens is an operand, the earlier one came before it. -/
def InTurn (earlier later : Placed) : Prop :=
  later.1.isOperand = true → earlier.2 < later.2

/-- The tokens go out so: every token that is no parenthesis once, and none before
an operand that came before it. -/
structure GoesOut (tokens out : List Token) (placed : List Placed) : Prop where
  tokens_eq : placed.map Prod.fst = out
  perm : placed.Perm (placedWithoutParentheses tokens.zipIdx)
  inTurn : placed.Pairwise InTurn

variable {tokens out : List Token} {token : Token} {s : Step} {next : Nat}
  {waiting placed : List Placed}

/-- Operands go out at once and never wait. -/
theorem Waits.isOperand_eq_false (h : Waits token) : token.isOperand = false := by
  rcases h with rfl | ⟨op, hop⟩
  · rfl
  · cases token with
    | number | argument | constant => cases hop
    | _ => rfl

/-- What waits before the token at the place `next` is read. -/
structure WaitsBefore (next : Nat) (waiting : List Placed) : Prop where
  waits : ∀ other ∈ waiting, Waits other.1
  earlier : ∀ other ∈ waiting, other.2 < next
  nodup : waiting.Nodup

/-- What waits with its places is tokens that wait. -/
theorem WaitsBefore.waits_map (h : WaitsBefore next waiting) :
    ∀ other ∈ waiting.map Prod.fst, Waits other := by
  intro other hother
  obtain ⟨placed, hplaced, rfl⟩ := List.mem_map.mp hother
  exact h.waits placed hplaced

/-- No operand is among what waits, so the token that is read is the only one that
could be one, and all others came before it. -/
theorem WaitsBefore.pairwise_inTurn (h : WaitsBefore next waiting) (token : Token)
    (hnodup : placed.Nodup)
    (hmem : ∀ other ∈ placed, other = (token, next) ∨ other ∈ waiting) :
    placed.Pairwise InTurn := by
  refine List.Pairwise.imp_of_mem ?_ hnodup
  intro first second hfirst hsecond hne hoperand
  rcases hmem second hsecond with rfl | hwaiting
  · exact h.earlier first ((hmem first hfirst).resolve_left hne)
  · rw [(h.waits second hwaiting).isOperand_eq_false] at hoperand
    cases hoperand

/-- What one step gives, with the places of the tokens. -/
structure StepsTo (next : Nat) (token : Token) (waiting : List Placed) (s : Step)
    (out rest : List Placed) : Prop where
  out_eq : out.map Prod.fst = s.out
  waiting_eq : rest.map Prod.fst = s.waiting
  noParenthesis : ∀ other ∈ out, other.1.isParenthesis = false
  earlier : ∀ other ∈ out, other.2 ≤ next
  inTurn : out.Pairwise InTurn
  waitsBefore : WaitsBefore (next + 1) rest
  perm : (placedWithoutParentheses (out ++ rest)).Perm
    (placedWithoutParentheses ((token, next) :: waiting))

variable {out' rest : List Placed}

/-- A step of which it is known what goes out and what waits then keeps the places in
order: what goes out came before, and it is each token once. -/
theorem WaitsBefore.stepsTo (h : WaitsBefore next waiting) (hout : out'.map Prod.fst = s.out)
    (hrest : rest.map Prod.fst = s.waiting)
    (hnoParenthesis : ∀ other ∈ s.out, other.isParenthesis = false)
    (hwaits : ∀ other ∈ s.waiting, Waits other) (hnodup : (out' ++ rest).Nodup)
    (hmem : ∀ other ∈ out' ++ rest, other = (token, next) ∨ other ∈ waiting)
    (hperm : (placedWithoutParentheses (out' ++ rest)).Perm
      (placedWithoutParentheses ((token, next) :: waiting))) :
    StepsTo next token waiting s out' rest := by
  have hearlier (other : Placed) (hother : other ∈ out' ++ rest) : other.2 ≤ next := by
    rcases hmem other hother with rfl | hwaiting
    · exact Nat.le_refl next
    · exact Nat.le_of_lt (h.earlier other hwaiting)
  rw [List.nodup_append] at hnodup
  refine ⟨hout, hrest, fun other hother => ?_, fun other hother => ?_, ?_, ⟨fun other hother => ?_,
    fun other hother => ?_, hnodup.2.1⟩, hperm⟩
  · exact hnoParenthesis other.1 (hout ▸ List.mem_map_of_mem hother)
  · exact hearlier other (List.mem_append_left rest hother)
  · exact h.pairwise_inTurn token hnodup.1 fun other hother =>
      hmem other (List.mem_append_left rest hother)
  · exact hwaits other.1 (hrest ▸ List.mem_map_of_mem hother)
  · exact Nat.lt_succ_of_le (hearlier other (List.mem_append_right out' hother))

/-- Every step on a known token sends the tokens out and to wait in this way. -/
theorem WaitsBefore.exists_stepsTo (h : WaitsBefore next waiting) (hknown : token.isKnown = true)
    (hstep : step (waiting.map Prod.fst) token = .ok s) :
    ∃ out rest, StepsTo next token waiting s out rest := by
  have hmoves := moves h.waits_map hknown
  rw [hstep] at hmoves
  cases hmoves with
  | joins _ hout hrest hperm =>
    obtain ⟨ordered, hordered, hperm⟩ :=
      @exists_map_eq_of_perm _ _ Prod.fst _ ((token, next) :: waiting) hperm
    obtain ⟨out, rest, rfl, hout', hrest'⟩ := List.map_eq_append_iff.mp hordered
    have hfresh : (token, next) ∉ waiting := fun hmem => Nat.lt_irrefl next (h.earlier _ hmem)
    refine ⟨out, rest, h.stepsTo hout' hrest' hout hrest ?_ ?_ (hperm.filter _)⟩
    · exact hperm.nodup_iff.mpr (List.nodup_cons.mpr ⟨hfresh, h.nodup⟩)
    · exact fun other hother => List.mem_cons.mp (hperm.mem_iff.mp hother)
  | closes hout hrest hperm =>
    obtain ⟨ordered, hordered, hperm⟩ := exists_map_eq_of_perm hperm
    obtain ⟨out, rest, rfl, hout', hrest'⟩ := List.map_eq_append_iff.mp hordered
    obtain ⟨group, rest, rfl, hgroup, hrest'⟩ := List.map_eq_cons_iff.mp hrest'
    have hsublist : (out ++ rest).Sublist (out ++ group :: rest) :=
      (List.sublist_cons_self group rest).append_left out
    refine ⟨out, rest, h.stepsTo hout' hrest' hout hrest ?_ ?_ ?_⟩
    · exact (hperm.nodup_iff.mpr h.nodup).sublist hsublist
    · exact fun other hother => .inr (hperm.mem_iff.mp (hsublist.subset hother))
    · have hpermKept := hperm.filter (!·.1.isParenthesis)
      simpa [placedWithoutParentheses, hgroup, isParenthesis] using hpermKept

/-- Parentheses can be taken out part by part. -/
theorem placedWithoutParentheses_append (tokens tokens' : List Placed) :
    placedWithoutParentheses (tokens ++ tokens') =
      placedWithoutParentheses tokens ++ placedWithoutParentheses tokens' :=
  List.filter_append tokens tokens'

/-- Where there is no parenthesis, none is taken out. -/
theorem placedWithoutParentheses_eq_self
    (h : ∀ other ∈ placed, other.1.isParenthesis = false) :
    placedWithoutParentheses placed = placed :=
  List.filter_eq_self.mpr fun other hother => by rw [h other hother]; rfl

/-- What a run gives out, on top of what waits before the place `next`. -/
theorem WaitsBefore.exists_of_arrange (h : WaitsBefore next waiting)
    (hknown : ∀ token ∈ tokens, token.isKnown = true)
    (hrun : arrange (waiting.map Prod.fst) tokens = .ok out) :
    ∃ placed : List Placed, placed.map Prod.fst = out ∧
      placed.Perm (placedWithoutParentheses (waiting ++ tokens.zipIdx next)) ∧
      placed.Pairwise InTurn := by
  induction tokens generalizing next waiting out with
  | nil =>
    obtain ⟨rfl, hopen⟩ := flush_eq_ok_iff.mp hrun
    have hnoParenthesis (other : Placed) (hother : other ∈ waiting) :
        other.1.isParenthesis = false := by
      refine (h.waits other hother).isParenthesis_eq_false fun hopening => hopen ?_
      rw [← hopening]
      exact List.mem_map_of_mem hother
    refine ⟨waiting, rfl, ?_, h.pairwise_inTurn .opening h.nodup fun _ => .inr⟩
    rw [List.zipIdx_nil, List.append_nil, placedWithoutParentheses_eq_self hnoParenthesis]
  | cons token tokens ih =>
    obtain ⟨htoken, hrestKnown⟩ := List.forall_mem_cons.mp hknown
    simp only [arrange, bind_eq_ok_iff] at hrun
    obtain ⟨s, hs, later, hlater, heq⟩ := hrun
    cases heq
    obtain ⟨first, rest, hsteps⟩ := h.exists_stepsTo htoken hs
    rw [← hsteps.waiting_eq] at hlater
    obtain ⟨last, hlast, hperm, hinTurn⟩ := ih hsteps.waitsBefore hrestKnown hlater
    refine ⟨first ++ last, by rw [List.map_append, hsteps.out_eq, hlast], ?_, ?_⟩
    · rw [← placedWithoutParentheses_eq_self hsteps.noParenthesis]
      refine (hperm.append_left _).trans ?_
      rw [← placedWithoutParentheses_append, ← List.append_assoc, placedWithoutParentheses_append,
        List.zipIdx_cons]
      refine (hsteps.perm.append_right _).trans ?_
      rw [← placedWithoutParentheses_append]
      exact List.perm_middle.symm.filter _
    · refine List.pairwise_append.mpr
        ⟨hsteps.inTurn, hinTurn, fun earlier hearlier later hlater => ?_⟩
      -- An operand that goes out later does not wait now, so it is still to be read.
      intro hoperand
      obtain ⟨hmem, -⟩ := List.mem_filter.mp (hperm.mem_iff.mp hlater)
      rcases List.mem_append.mp hmem with hwaiting | hread
      · rw [(hsteps.waitsBefore.waits later hwaiting).isOperand_eq_false] at hoperand
        cases hoperand
      · exact Nat.lt_of_le_of_lt (hsteps.earlier earlier hearlier)
          (List.le_snd_of_mem_zipIdx hread)

/-- Tokens that are put in order go out each once, and no operand overtakes what came
before it. -/
theorem exists_goesOut {expression : Postfix} (hknown : ∀ token ∈ tokens, token.isKnown = true)
    (h : ofTokens tokens = .ok expression) :
    ∃ placed, GoesOut tokens expression.tokens placed := by
  obtain ⟨out, hout, rfl⟩ := map_eq_ok_iff.mp h
  have hstart : WaitsBefore 0 [] := ⟨by simp, by simp, List.nodup_nil⟩
  obtain ⟨placed, htokens, hperm, hinTurn⟩ := hstart.exists_of_arrange hknown hout
  exact ⟨placed, htokens, hperm, hinTurn⟩

/-- To choose tokens and to forget their places can be done in either order. -/
theorem map_fst_filter (p : Token → Bool) (placed : List Placed) :
    (placed.filter (p ·.1)).map Prod.fst = (placed.map Prod.fst).filter p := by
  rw [List.filter_map]
  rfl

/-- Places grow along the input. -/
theorem pairwise_zipIdx (tokens : List Token) (next : Nat) :
    (tokens.zipIdx next).Pairwise fun earlier later => earlier.2 < later.2 := by
  induction tokens generalizing next with
  | nil => exact List.Pairwise.nil
  | cons token tokens ih =>
    rw [List.zipIdx_cons, List.pairwise_cons]
    exact ⟨fun later hlater => List.le_snd_of_mem_zipIdx hlater, ih (next + 1)⟩

namespace GoesOut

/-- What goes out is the tokens without the parentheses, in some order. -/
theorem perm_withoutParentheses (h : GoesOut tokens out placed) :
    out.Perm (withoutParentheses tokens) := by
  have hperm := h.perm.map Prod.fst
  rwa [h.tokens_eq, placedWithoutParentheses, map_fst_filter (!·.isParenthesis),
    List.zipIdx_map_fst] at hperm

/-- The operands go out in the order in which they came. -/
theorem filter_isOperand (h : GoesOut tokens out placed) :
    out.filter isOperand = tokens.filter isOperand := by
  have hparenthesis (other : Placed) :
      (other.1.isOperand && !other.1.isParenthesis) = other.1.isOperand := by
    cases other.1 <;> rfl
  have hperm : (placed.filter (·.1.isOperand)).Perm (tokens.zipIdx.filter (·.1.isOperand)) := by
    have hfilter := h.perm.filter (·.1.isOperand)
    rw [placedWithoutParentheses, List.filter_filter] at hfilter
    simpa only [hparenthesis] using hfilter
  have hsorted : (placed.filter (·.1.isOperand)).Pairwise fun earlier later =>
      earlier.2 < later.2 := by
    refine (h.inTurn.filter _).imp_of_mem fun _ hlater hinTurn => hinTurn ?_
    exact (List.mem_filter.mp hlater).2
  have heq := List.Perm.eq_of_pairwise
    (fun _ _ _ _ hlt hgt => absurd (Nat.lt_trans hlt hgt) (Nat.lt_irrefl _)) hsorted
    ((pairwise_zipIdx tokens 0).filter _) hperm
  rw [← h.tokens_eq, ← map_fst_filter, heq, map_fst_filter, List.zipIdx_map_fst]

end GoesOut

/-- Tokens that all have a place in an expression have a postfix order exactly if
their parentheses are balanced, and otherwise the fault is called that of the
parentheses. The postfix order has every token that is no parenthesis as often as
it came and the operands in the order in which they came, and no token goes out
before an operand that came before it. -/
theorem ofTokens_conserves (tokens : List Token)
    (hknown : ∀ token ∈ tokens, token.isKnown = true) :
    ((∃ expression, ofTokens tokens = .ok expression) ↔ Balanced tokens) ∧
    (¬Balanced tokens → ofTokens tokens = .error .parenthesisMismatch) ∧
    ∀ expression, ofTokens tokens = .ok expression →
      expression.tokens.Perm (withoutParentheses tokens) ∧
      expression.tokens.filter isOperand = tokens.filter isOperand ∧
      ∃ placed, GoesOut tokens expression.tokens placed := by
  refine ⟨?_, fun hnot => ?_, fun expression hexpression => ?_⟩
  · rcases ofTokens_cases hknown with ⟨hbalanced, expression, hexpression, -⟩ | ⟨hnot, herror⟩
    · exact ⟨fun _ => hbalanced, fun _ => ⟨expression, hexpression⟩⟩
    · rw [herror]
      exact ⟨fun ⟨_, h⟩ => (nomatch h), fun hbalanced => absurd hbalanced hnot⟩
  · exact ((ofTokens_cases hknown).resolve_left fun h => hnot h.1).2
  · obtain ⟨placed, hplaced⟩ := exists_goesOut hknown hexpression
    exact ⟨hplaced.perm_withoutParentheses, hplaced.filter_isOperand, placed, hplaced⟩

/-- Keys that make no sense: `+ x √ π ( e - ) x² ^`. -/
def jumbledKeys : List Token :=
  [.binary "+", .argument "x", .unary "√", .constant "π", .opening, .constant "e", .binary "-",
    .closing, .unary "x²", .binary "^"]

/-- Keys that make no sense have a postfix order nevertheless, and lose nothing. -/
theorem ofTokens_conserves_jumbledKeys :
    (∀ token ∈ jumbledKeys, token.isKnown = true) ∧
    ofTokens jumbledKeys = .ok ⟨[.argument "x", .constant "π", .constant "e", .binary "-",
      .unary "√", .unary "x²", .binary "^", .binary "+"]⟩ ∧
    Balanced jumbledKeys ∧
    ∃ placed, GoesOut jumbledKeys [.argument "x", .constant "π", .constant "e", .binary "-",
      .unary "√", .unary "x²", .binary "^", .binary "+"] placed := by
  have hknown : ∀ token ∈ jumbledKeys, token.isKnown = true := by decide
  have hexpression : ofTokens jumbledKeys = .ok ⟨[.argument "x", .constant "π", .constant "e",
      .binary "-", .unary "√", .unary "x²", .binary "^", .binary "+"]⟩ := by rfl
  obtain ⟨hbalanced, -, hgoesOut⟩ := ofTokens_conserves jumbledKeys hknown
  exact ⟨hknown, hexpression, hbalanced.mp ⟨_, hexpression⟩, (hgoesOut _ hexpression).2.2⟩

end FormulaCalculator.Postfix
