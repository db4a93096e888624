import FormulaCalculator.Proofs.ReadingSteps

/-!
# Every formula of the grammar is read

The argument follows the derivation. A part of a formula can be read on top of
whatever waits, as long as nothing there goes before the operators of the part.
After it some of its operators wait, all of them as strong as a part of its kind
can leave them, and when they settle the tree of the part is on top of the
operands that were there before.
-/

set_option autoImplicit false

namespace FormulaCalculator

namespace Category

/-- The least precedence that an operator can have that waits behind a part. -/
def weakest : Category → Nat
  | .sum => 2
  | .product => 3
  | .factor => 5
  | .primary => 6

/-- The precedence that an operator in front of a part stays below. -/
def bound : Category → Nat
  | .sum => 2
  | .product => 3
  | .factor | .primary => 6

end Category

namespace Reading

/-- What waits last is no call and is weaker than a precedence. -/
def Below (n : Nat) (waiting : List Located) : Prop :=
  ∀ top ∈ waiting.head?, (∀ name, top.token ≠ .call name) ∧
    ∀ op, top.token.operator? = some op → op.precedence < n

variable {m n position : Nat} {op : Operator} {sign : Token} {t u : SyntaxTree}
  {waiting located more : List Located} {operands : List SyntaxTree} {reading next : Reading}

/-- Where nothing waits, nothing is too strong. -/
theorem below_nil : Below n [] := by simp [Below]

/-- A parenthesis keeps all that waits below it from what comes. -/
theorem below_opening : Below n (⟨position, .opening⟩ :: waiting) := by
  simp [Below, Token.operator?]

/-- What is weaker than a precedence is weaker than any higher one. -/
theorem Below.mono (h : Below m waiting) (hle : m ≤ n) : Below n waiting := fun top hmem =>
  ⟨(h top hmem).1, fun op hop => Nat.lt_of_lt_of_le ((h top hmem).2 op hop) hle⟩

/-- An operator that waits last is weaker than the precedences above its own. -/
theorem below_operator (position : Nat) (hop : sign.operator? = some op)
    (hcall : ∀ name, sign ≠ .call name)
    (hlt : op.precedence < n) : Below n (⟨position, sign⟩ :: waiting) := by
  intro top hmem
  obtain rfl := Option.some.inj hmem
  refine ⟨hcall, fun other hother => ?_⟩
  rw [hop] at hother
  obtain rfl := Option.some.inj hother
  exact hlt

/-- Reading the tokens leaves the tree on top of the operands, once all has
settled that waits on top of what waited before. -/
def ReadsAs (n : Nat) (located : List Located) (reading : Reading) (t : SyntaxTree)
    (operands : List SyntaxTree) (waiting : List Located) : Prop :=
  ∃ operands' pending,
    located.foldlM step reading = .ok ⟨operands', pending ++ waiting, false⟩ ∧
      Settles n pending operands' (t :: operands)

/-- A part that is read with operators left that are at least so strong is read with
weaker ones allowed too. -/
theorem ReadsAs.mono (h : ReadsAs n located reading t operands waiting) (hle : m ≤ n) :
    ReadsAs m located reading t operands waiting := by
  obtain ⟨operands', pending, hread, hsettles⟩ := h
  exact ⟨operands', pending, hread, hsettles.mono hle⟩

/-- A part is read after the tokens in front of it have been. -/
theorem ReadsAs.after (hread : located.foldlM step reading = .ok next)
    (h : ReadsAs n more next t operands waiting) :
    ReadsAs n (located ++ more) reading t operands waiting := by
  obtain ⟨operands', pending, hmore, hsettles⟩ := h
  refine ⟨operands', pending, ?_, hsettles⟩
  rw [List.foldlM_append, hread]
  exact hmore

/-- A part is read after the first of its tokens has been. -/
theorem ReadsAs.cons {first : Located} (hstep : reading.step first = .ok next)
    (h : ReadsAs n more next t operands waiting) :
    ReadsAs n (first :: more) reading t operands waiting := by
  obtain ⟨operands', pending, hmore, hsettles⟩ := h
  refine ⟨operands', pending, ?_, hsettles⟩
  rw [List.foldlM_cons, hstep]
  exact hmore

/-- A part is settled by the sign behind it. -/
theorem ReadsAs.binary (h : ReadsAs n located reading t operands waiting) (position : Nat)
    (hop : sign.operator? = some op)
    (hbefore : ∀ other : Operator, n ≤ other.precedence → other.goesBefore op = true)
    (hstays : ∀ top ∈ waiting.head?, ∀ other, top.token.operator? = some other →
      other.goesBefore op = false) :
    ∃ middle : Reading, located.foldlM step reading = .ok middle ∧ middle.operandDue = false ∧
      middle.binary position sign = .ok ⟨t :: operands, ⟨position, sign⟩ :: waiting, true⟩ := by
  obtain ⟨operands', pending, hread, hsettles⟩ := h
  refine ⟨_, hread, rfl, binary_eq hop ?_⟩
  rw [hsettles.reduceBefore hbefore]
  exact reduceBefore_stays hstays

/-- The operator in front of a part settles after the part. -/
theorem ReadsAs.settle {rest : List SyntaxTree}
    (h : ReadsAs n located reading t operands (⟨position, sign⟩ :: waiting))
    (hop : sign.operator? = some op) (hn : m ≤ n) (hprecedence : m ≤ op.precedence)
    (hreduce : reduce ⟨position, sign⟩ (t :: operands) = .ok (u :: rest)) :
    ReadsAs m located reading u rest waiting := by
  obtain ⟨operands', pending, hread, hsettles⟩ := h
  refine ⟨operands', pending ++ [⟨position, sign⟩], ?_, ?_⟩
  · rw [List.append_assoc]
    exact hread
  · exact (hsettles.mono hn).append (.cons hop hprecedence hreduce .nil)

/-- A sign and the part behind it are read after the part in front of it. -/
theorem ReadsAs.joined {us : List Located} (h : ReadsAs n located reading t operands waiting)
    (hstep : ∀ middle : Reading, middle.step ⟨position, sign⟩ = middle.binary position sign)
    (hop : sign.operator? = some op) (harity : op.arity = .binary)
    (hbefore : ∀ other : Operator, n ≤ other.precedence → other.goesBefore op = true)
    (hstays : ∀ top ∈ waiting.head?, ∀ other, top.token.operator? = some other →
      other.goesBefore op = false)
    (hu : ReadsAs m us ⟨t :: operands, ⟨position, sign⟩ :: waiting, true⟩ u (t :: operands)
      (⟨position, sign⟩ :: waiting))
    (hle : op.precedence ≤ m) :
    ReadsAs op.precedence (located ++ ⟨position, sign⟩ :: us) reading (.binary sign t u) operands
      waiting := by
  obtain ⟨middle, hread, -, hbinary⟩ := h.binary position hop hbefore hstays
  exact .after hread (.cons ((hstep middle).trans hbinary)
    (hu.settle hop hle (Nat.le_refl _) (reduce_binary hop harity)))

/-- A sign that associates to the left takes a part whose operators are not
weaker, on top of operators that are. -/
theorem ReadsAs.joinedLeft {us : List Located} (h : ReadsAs n located reading t operands waiting)
    (hstep : ∀ middle : Reading, middle.step ⟨position, sign⟩ = middle.binary position sign)
    (hop : sign.operator? = some op) (hprecedence : op.precedence = n)
    (hleft : op.associativity = .left) (harity : op.arity = .binary) (hbelow : Below n waiting)
    (hu : ReadsAs m us ⟨t :: operands, ⟨position, sign⟩ :: waiting, true⟩ u (t :: operands)
      (⟨position, sign⟩ :: waiting))
    (hle : n ≤ m) :
    ReadsAs n (located ++ ⟨position, sign⟩ :: us) reading (.binary sign t u) operands waiting := by
  subst hprecedence
  refine h.joined hstep hop harity ?_ ?_ hu hle
  · exact fun other hother => Operator.goesBefore_of_left hleft hother
  · exact fun top hmem other hother =>
      Operator.not_goesBefore_of_lt ((hbelow top hmem).2 other hother)

/-- Behind a part in parentheses everything settles down to the opening one. -/
theorem ReadsAs.reduceGroup
    (h : ReadsAs n located reading t operands (⟨position, .opening⟩ :: waiting))
    (closed : Nat) :
    ∃ operands' waiting', located.foldlM step reading = .ok ⟨operands', waiting', false⟩ ∧
      Reading.reduceGroup closed operands' waiting' = .ok (t :: operands, waiting) := by
  obtain ⟨operands', pending, hread, hsettles⟩ := h
  refine ⟨operands', _, hread, ?_⟩
  rw [hsettles.reduceGroup]
  rfl

/-- A part that makes a product with the part in front of it is read after it. -/
theorem ReadsAs.juxtaposed {us : List Located}
    (h : ReadsAs 3 located reading t operands waiting) (hwaiting : Below 3 waiting)
    (hus : (us.map Located.token).head?.any Token.juxtaposes = true)
    (hu : ∀ position, ReadsAs 5 us ⟨t :: operands, ⟨position, .binary "*"⟩ :: waiting, true⟩ u
      (t :: operands) (⟨position, .binary "*"⟩ :: waiting)) :
    ReadsAs 3 (located ++ us) reading (.binary (.binary "*") t u) operands waiting := by
  obtain ⟨op, hop, hprecedence, hleft, harity⟩ := Token.Scales.times.operator?
  cases us with
  | nil => cases hus
  | cons first us =>
    have hfirst : first.token.juxtaposes = true := by simpa using hus
    have hbefore (other : Operator) (hle : 3 ≤ other.precedence) : other.goesBefore op = true :=
      Operator.goesBefore_of_left hleft (by omega)
    have hstays (top : Located) (hmem : top ∈ waiting.head?) (other : Operator)
        (hother : top.token.operator? = some other) : other.goesBefore op = false :=
      Operator.not_goesBefore_of_lt (hprecedence ▸ (hwaiting top hmem).2 other hother)
    obtain ⟨middle, hread, hended, hbinary⟩ :=
      h.binary first.position hop hbefore hstays
    obtain ⟨operands', pending, hmore, hsettles⟩ :=
      (hu first.position).settle hop (by omega : 3 ≤ 5) (by omega) (reduce_binary hop harity)
    refine .after hread ⟨operands', pending, ?_, hsettles⟩
    rw [List.foldlM_cons] at hmore ⊢
    rw [step_juxtaposes hended hfirst, hbinary]
    exact hmore

/-- Where tokens start with a given one, so do the tokens with their positions. -/
theorem exists_of_map_eq_cons {token : Token} {ts : List Token}
    (h : located.map Located.token = token :: ts) :
    ∃ position rest, located = ⟨position, token⟩ :: rest ∧ rest.map Located.token = ts := by
  obtain ⟨⟨position, token⟩, rest, rfl, rfl, hrest⟩ := List.map_eq_cons_iff.mp h
  exact ⟨position, rest, rfl, hrest⟩

/-- Where a given token stands among others, the tokens with their positions can be cut in
front of it and behind it. -/
theorem exists_of_map_eq_append {token : Token} {ts us : List Token}
    (h : located.map Located.token = ts ++ token :: us) :
    ∃ front position back, located = front ++ ⟨position, token⟩ :: back ∧
      front.map Located.token = ts ∧ back.map Located.token = us := by
  obtain ⟨front, rest, rfl, hfront, hrest⟩ := List.map_eq_append_iff.mp h
  obtain ⟨position, back, rfl, hback⟩ := exists_of_map_eq_cons hrest
  exact ⟨front, position, back, rfl, hfront, hback⟩

end Reading

open Reading

/-- A derived part of a formula is read as the tree of its derivation. -/
theorem Derives.readsAs {category : Category} {ts : List Token} {t : SyntaxTree}
    (h : Derives category ts t) {located : List Located} (hlocated : located.map Located.token = ts)
    (operands : List SyntaxTree) {waiting : List Located} (hbelow : Below category.bound waiting) :
    ReadsAs category.weakest located ⟨operands, waiting, true⟩ t operands waiting := by
  induction h generalizing located operands waiting with
  | product _ ih =>
    exact (ih hlocated operands (hbelow.mono (by decide))).mono (by decide)
  | factor _ ih =>
    exact (ih hlocated operands (hbelow.mono (by decide))).mono (by decide)
  | primary _ ih => exact (ih hlocated operands hbelow).mono (by decide)
  | added _ hsign _ ih ihu | scaled _ hsign _ ih ihu =>
    obtain ⟨op, hop, hprecedence, hleft, harity⟩ := hsign.operator?
    obtain ⟨front, position, back, rfl, hfront, hback⟩ := exists_of_map_eq_append hlocated
    -- The part behind the sign stays below what waits for it: the sign itself.
    refine (ih hfront operands hbelow).joinedLeft ?_ hop hprecedence hleft harity hbelow
      (ihu hback _ (below_operator position hop ?_ ?_)) (by decide)
    · intro middle
      cases hsign <;> rfl
    · cases hsign <;> simp
    · rw [hprecedence]
      decide
  | juxtaposed _ _ hhead ih ihu =>
    obtain ⟨front, back, rfl, hfront, hback⟩ := List.map_eq_append_iff.mp hlocated
    refine (ih hfront operands hbelow).juxtaposed hbelow (by rw [hback]; exact hhead) ?_
    intro position
    exact ihu hback _ (below_operator position rfl (by simp) (by decide))
  | negated _ ih =>
    obtain ⟨position, rest, rfl, hrest⟩ := exists_of_map_eq_cons hlocated
    have hbelow' : Below 6 (⟨position, .unary "-"⟩ :: waiting) :=
      below_operator position Token.operator?_negation (by simp) (by decide)
    exact .cons rfl
      ((ih hrest operands hbelow').settle Token.operator?_negation (by decide) (by decide)
        (reduce_unary rfl rfl))
  | power _ _ ih ihu =>
    obtain ⟨front, position, back, rfl, hfront, hback⟩ := exists_of_map_eq_append hlocated
    refine (ih hfront operands hbelow).joined (fun _ => rfl) Token.operator?_caret rfl ?_ ?_
      (ihu hback _ (below_operator position Token.operator?_caret (by simp) (by decide)))
      (by decide)
    · exact fun other hother => Operator.goesBefore_of_lt hother
    · exact fun top hmem other hother =>
        Operator.not_goesBefore_of_right rfl (Nat.le_of_lt_succ ((hbelow top hmem).2 other hother))
  | @leaf token htoken =>
    obtain ⟨position, rest, rfl, hrest⟩ := exists_of_map_eq_cons hlocated
    obtain rfl := List.map_eq_nil_iff.mp hrest
    refine ⟨_, [], ?_, .nil⟩
    cases token <;> first | rfl | cases htoken
  | call _ ih =>
    obtain ⟨called, body, rfl, hbody⟩ := exists_of_map_eq_cons hlocated
    obtain ⟨opened, rest, rfl, hrest⟩ := exists_of_map_eq_cons hbody
    obtain ⟨inner, closed, back, rfl, hinner, hback⟩ := exists_of_map_eq_append hrest
    obtain rfl := List.map_eq_nil_iff.mp hback
    obtain ⟨operands', waiting', hread, hreduce⟩ :=
      (ih hinner operands below_opening).reduceGroup closed
    exact .cons rfl (.cons rfl (.after hread (.cons (closing_call hreduce) ⟨_, [], rfl, .nil⟩)))
  | group _ ih =>
    obtain ⟨opened, rest, rfl, hrest⟩ := exists_of_map_eq_cons hlocated
    obtain ⟨inner, closed, back, rfl, hinner, hback⟩ := exists_of_map_eq_append hrest
    obtain rfl := List.map_eq_nil_iff.mp hback
    obtain ⟨operands', waiting', hread, hreduce⟩ :=
      (ih hinner operands below_opening).reduceGroup closed
    have hclosing := closing_group hreduce fun top hmem => (hbelow top hmem).1
    exact .cons rfl (.after hread (.cons hclosing ⟨_, [], rfl, .nil⟩))

end FormulaCalculator
