import FormulaCalculator.Proofs.DoubleValue

/-!
# The doubles nearest to real numbers

The double before a whole number `n` with `2 ^ (k - 1) < n ≤ 2 ^ k` is
`n - 2 ^ (k - 53)`, and its mantissa is odd. So the real numbers to which `n` or a
greater double is the nearest start half way between the two.
-/

set_option autoImplicit false

namespace FormulaCalculator.Number

open Float.Model.UnpackedFloat

variable {x y z : Float} {negative : Bool} {m n : Nat} {e : Int} {r : ℝ}

/-! ## The double before a whole number -/

/-- The distance of a whole number to the double before it. -/
def gapBefore (n : Nat) : ℚ := 2 ^ ((Nat.clog 2 n : ℤ) - 53)

/-- There is a gap below every whole number. -/
theorem gapBefore_pos (n : Nat) : 0 < gapBefore n := by
  unfold gapBefore
  positivity

/-- A power of two that is not below a number is less than twice the number. -/
theorem two_pow_clog_lt (hpos : 0 < n) : 2 ^ Nat.clog 2 n < 2 * n := by
  cases hk : Nat.clog 2 n with
  | zero => omega
  | succ k =>
    have hlt : 2 ^ k < n := Nat.pow_lt_of_lt_clog (by omega)
    omega

/-- A whole number in the units of the double before it. -/
def unitsOf (n : Nat) : Nat := n * 2 ^ (53 - Nat.clog 2 n)

/-- In the units of the double before it, a whole number has 53 bits, or is the power of
two above them, and is even. -/
theorem unitsOf_bounds (hpos : 0 < n) (hle : n ≤ 2 ^ 52) :
    Nat.clog 2 n ≤ 52 ∧ 2 ^ 52 < unitsOf n ∧ unitsOf n ≤ 2 ^ 53 ∧ unitsOf n % 2 = 0 := by
  have hclog : Nat.clog 2 n ≤ 52 := (Nat.clog_le_iff_le_pow (by decide)).mpr hle
  have hsplit : 2 ^ 53 = 2 ^ Nat.clog 2 n * 2 ^ (53 - Nat.clog 2 n) := by
    rw [← pow_add]
    congr 1
    omega
  have hlow : 2 ^ 53 < 2 * unitsOf n := by
    calc 2 ^ 53 = 2 ^ Nat.clog 2 n * 2 ^ (53 - Nat.clog 2 n) := hsplit
      _ < 2 * n * 2 ^ (53 - Nat.clog 2 n) := by
        gcongr
        exact two_pow_clog_lt hpos
      _ = 2 * unitsOf n := by rw [unitsOf, Nat.mul_assoc]
  have hhigh : unitsOf n ≤ 2 ^ 53 := by
    rw [hsplit, unitsOf]
    gcongr
    exact Nat.le_pow_clog (by decide) n
  have heven : unitsOf n = 2 * (n * 2 ^ (52 - Nat.clog 2 n)) := by
    rw [unitsOf, show 53 - Nat.clog 2 n = 52 - Nat.clog 2 n + 1 by omega]
    ring
  exact ⟨hclog, by omega, hhigh, by omega⟩

/-- A whole number is so many units of the double before it. -/
theorem natCast_eq_unitsOf (hle : n ≤ 2 ^ 52) : (n : ℚ) = unitsOf n * gapBefore n := by
  have hclog : Nat.clog 2 n ≤ 52 := (Nat.clog_le_iff_le_pow (by decide)).mpr hle
  have hcancel : ((53 - Nat.clog 2 n : ℕ) : ℤ) + (Nat.clog 2 n - 53) = 0 := by omega
  rw [unitsOf, gapBefore, Nat.cast_mul, Nat.cast_pow, Nat.cast_ofNat, ← zpow_natCast, mul_assoc,
    ← zpow_add₀ (by norm_num), hcancel, zpow_zero, mul_one]

/-- One unit less is the mantissa of a double. -/
theorem canonical_before (hpos : 0 < n) (hle : n ≤ 2 ^ 52) :
    Canonical (unitsOf n - 1) (Nat.clog 2 n - 53) := by
  obtain ⟨hclog, hlow, hhigh, -⟩ := unitsOf_bounds hpos hle
  refine ⟨by omega, ?_, ?_, ?_, .inl ?_⟩
  all_goals simp only [mantissaBits, leastExponent, greatestExponent]
  all_goals omega

/-- One unit less is one gap below the whole number. -/
theorem sub_gapBefore_eq (hpos : 0 < n) (hle : n ≤ 2 ^ 52) :
    (n - gapBefore n : ℚ) = (unitsOf n - 1 : ℕ) * 2 ^ ((Nat.clog 2 n : ℤ) - 53) := by
  obtain ⟨-, hlow, -, -⟩ := unitsOf_bounds hpos hle
  rw [Nat.cast_sub (by omega : 1 ≤ unitsOf n), Nat.cast_one, ← gapBefore, sub_mul, one_mul,
    ← natCast_eq_unitsOf hle]

/-- Between two neighbouring multiples of a power of two that need all the bits of a
mantissa there is no double. -/
theorem le_pred_of_lt {k : Nat} {f : Int} (hlow : 2 ^ 52 < k) (hhigh : k ≤ 2 ^ 53)
    (hleast : leastExponent ≤ f) (hgreatest : f ≤ greatestExponent)
    (hx : Binary.ofFloat x = .finite negative m e) (hlt : exactValue x < k * 2 ^ f) :
    exactValue x ≤ (k - 1 : ℕ) * 2 ^ f ∧ (exactValue x = (k - 1 : ℕ) * 2 ^ f → m = k - 1) := by
  have hbefore : Canonical (k - 1) f := by
    refine ⟨by omega, ?_, hleast, hgreatest, .inl ?_⟩
    all_goals simp only [mantissaBits]
    all_goals omega
  have hpow : (0 : ℚ) < 2 ^ f := by positivity
  have hstrict (h : exactValue x < (k - 1 : ℕ) * 2 ^ f) :
      exactValue x ≤ (k - 1 : ℕ) * 2 ^ f ∧ (exactValue x = (k - 1 : ℕ) * 2 ^ f → m = k - 1) :=
    ⟨h.le, fun heq => absurd heq h.ne⟩
  have hpos : (0 : ℚ) < (k - 1 : ℕ) * 2 ^ f := by
    have : (0 : ℚ) < (k - 1 : ℕ) := by exact_mod_cast hbefore.pos
    positivity
  have hvalue := exactValue_eq hx
  cases negative with
  | true =>
    refine hstrict (lt_of_le_of_lt ?_ hpos)
    rw [hvalue, if_pos rfl]
    exact neg_nonpos.mpr (by positivity)
  | false =>
    rw [if_neg Bool.false_ne_true] at hvalue
    -- A positive double is compared by its exponent first, and then by its mantissa.
    rcases Binary.canonical_of_ofFloat hx with ⟨rfl, rfl⟩ | hm
    · refine hstrict ?_
      rw [hvalue]
      simpa using hpos
    · rcases lt_trichotomy e f with hexponent | rfl | hexponent
      · refine hstrict ?_
        rw [hvalue]
        exact hm.lt_of_exponent_lt hbefore hexponent
      · rw [hvalue, mul_lt_mul_iff_left₀ hpow, Nat.cast_lt] at hlt
        rw [hvalue, mul_le_mul_iff_left₀ hpow, Nat.cast_le, mul_left_inj' hpow.ne', Nat.cast_inj]
        omega
      · -- Doubles with a greater exponent are not below the multiple.
        have hfull : (2 ^ 52 : ℚ) ≤ m := by
          rcases hm.full with hfull | heq
          · exact_mod_cast hfull
          · omega
        have hge : (k * 2 ^ f : ℚ) ≤ m * 2 ^ e := by
          calc (k * 2 ^ f : ℚ) ≤ 2 ^ 53 * 2 ^ f := by
                gcongr
                exact_mod_cast hhigh
            _ = 2 ^ 52 * 2 ^ (f + 1) := by
              rw [zpow_add_one₀ (by norm_num)]
              ring
            _ ≤ m * 2 ^ e := by
              gcongr
              · norm_num
              · omega
        rw [hvalue] at hlt
        exact absurd hlt hge.not_gt

/-- No double is between a whole number and the one before it. The mantissa there
is odd. -/
theorem le_sub_gapBefore (hpos : 0 < n) (hle : n ≤ 2 ^ 52)
    (hx : Binary.ofFloat x = .finite negative m e) (hlt : exactValue x < n) :
    exactValue x ≤ n - gapBefore n ∧ (exactValue x = n - gapBefore n → m % 2 = 1) := by
  obtain ⟨hclog, hlow, hhigh, heven⟩ := unitsOf_bounds hpos hle
  have hbefore := canonical_before hpos hle
  rw [natCast_eq_unitsOf hle] at hlt
  rw [sub_gapBefore_eq hpos hle]
  obtain ⟨hvalue, hmantissa⟩ :=
    le_pred_of_lt hlow hhigh hbefore.least hbefore.greatest hx hlt
  exact ⟨hvalue, fun heq => by rw [hmantissa heq]; omega⟩

/-- There is a double one gap below a whole number. -/
theorem exists_before (hpos : 0 < n) (hle : n ≤ 2 ^ 52) :
    ∃ z : Float, z.isFinite = true ∧ exactValue z = n - gapBefore n := by
  have hbits := unitsOf_bounds hpos hle
  have hz := ofFloat_toFloat_of_canonical (canonical_before hpos hle) (by omega) false
  exact ⟨_, isFinite_of_ofFloat hz, (exactValue_eq hz).trans (sub_gapBefore_eq hpos hle).symm⟩

/-! ## Nearest doubles -/

/-- Of all doubles this one is nearest to the real number; of two that are equally
near it is the one with the even mantissa. -/
structure IsNearest (y : Float) (r : ℝ) : Prop where
  finite : y.isFinite = true
  nearest : ∀ z : Float, z.isFinite = true → |(exactValue y - r : ℝ)| ≤ |(exactValue z - r : ℝ)|
  tie : ∀ z : Float, z.isFinite = true → exactValue z ≠ exactValue y →
    |(exactValue z - r : ℝ)| = |(exactValue y - r : ℝ)| →
      ∃ negative m e, Binary.ofFloat y = .finite negative m e ∧ m % 2 = 0

/-- A number is nearest to a double if it is nearer to it than half way to what its
neighbours do not pass. -/
theorem isNearest_of_neighbours {low high : ℚ} (hfinite : y.isFinite = true)
    (hlow : ∀ z : Float, z.isFinite = true → exactValue z < exactValue y → exactValue z ≤ low)
    (hhigh : ∀ z : Float, z.isFinite = true → exactValue y < exactValue z → high ≤ exactValue z)
    (hr : ((low + exactValue y : ℚ) / 2 : ℝ) < r) (hr' : r < ((exactValue y + high : ℚ) / 2 : ℝ)) :
    IsNearest y r := by
  have hfar (z : Float) (hz : z.isFinite = true) (hne : exactValue z ≠ exactValue y) :
      |(exactValue y - r : ℝ)| < |(exactValue z - r : ℝ)| := by
    push_cast at hr hr'
    rcases lt_or_gt_of_ne hne with hlt | hgt
    · have hz' : (exactValue z : ℝ) ≤ low := by exact_mod_cast hlow z hz hlt
      have hlt : (exactValue z : ℝ) < exactValue y := by exact_mod_cast hlt
      rw [abs_lt, lt_abs, neg_lt, lt_abs]
      exact ⟨.inr (by linarith), .inr (by linarith)⟩
    · have hz' : (high : ℝ) ≤ exactValue z := by exact_mod_cast hhigh z hz hgt
      have hgt : (exactValue y : ℝ) < exactValue z := by exact_mod_cast hgt
      rw [abs_lt, lt_abs, neg_lt, lt_abs]
      exact ⟨.inl (by linarith), .inl (by linarith)⟩
  refine ⟨hfinite, fun z hz => ?_, fun z hz hne heq => absurd heq (hfar z hz hne).ne'⟩
  by_cases heq : exactValue z = exactValue y
  · rw [heq]
  · exact (hfar z hz heq).le

/-- The numbers to which a whole number or a greater double is the nearest start half
way to the double before it; there the whole number is the nearest, as its mantissa
is even. -/
theorem IsNearest.natCast_le_iff (h : IsNearest y r) (hpos : 0 < n) (hle : n ≤ 2 ^ 52) :
    (n : ℚ) ≤ exactValue y ↔ (n - gapBefore n / 2 : ℝ) ≤ r := by
  have hgap : (0 : ℝ) < gapBefore n := by exact_mod_cast gapBefore_pos n
  constructor
  · intro hy
    obtain ⟨z, hz, hvalue⟩ := exists_before hpos hle
    have hy : (n : ℝ) ≤ exactValue y := by exact_mod_cast hy
    have hvalue : (exactValue z : ℝ) = n - gapBefore n := by exact_mod_cast hvalue
    have hnearest := h.nearest z hz
    rw [hvalue] at hnearest
    by_contra hr
    rw [not_le] at hr
    rw [abs_of_pos (by linarith), le_abs] at hnearest
    rcases hnearest with h | h <;> linarith
  · intro hr
    by_contra hy
    rw [not_le] at hy
    obtain ⟨negative, m, e, hform⟩ := exists_of_isFinite h.finite
    obtain ⟨hbefore, hodd⟩ := le_sub_gapBefore hpos hle hform hy
    have hbefore' : (exactValue y : ℝ) ≤ n - gapBefore n := by exact_mod_cast hbefore
    have hn : (exactValue (Float.ofNat n) : ℝ) = n := by
      exact_mod_cast congrArg (Rat.cast : ℚ → ℝ) (exactValue_ofNat hpos (by omega))
    have hfinite := @isFinite_ofNat n (by omega)
    have hnearest := h.nearest _ hfinite
    rw [hn, abs_of_neg (by linarith), le_abs] at hnearest
    rcases hnearest with hmiddle | habove
    · -- Only the middle between the two is left, where the double before is not taken.
      have hr : r = n - gapBefore n / 2 := by linarith
      have hsame : (exactValue y : ℝ) = n - gapBefore n := by linarith
      have hdistance : |(exactValue (Float.ofNat n) - r : ℝ)| = |(exactValue y - r : ℝ)| := by
        rw [hn, hsame, hr, abs_of_pos (by linarith), abs_of_neg (by linarith)]
        ring
      have hne : exactValue (Float.ofNat n) ≠ exactValue y := by
        rw [exactValue_ofNat hpos (by omega)]
        exact hy.ne'
      obtain ⟨negative', m', e', hform', heven⟩ := h.tie _ hfinite hne hdistance
      rw [hform] at hform'
      cases hform'
      have hone := hodd (by exact_mod_cast hsame)
      omega
    · linarith

/-- Less than half way to the double before a whole number, the whole number is the
nearest. -/
theorem isNearest_ofNat (hpos : 0 < n) (hle : n ≤ 2 ^ 52) (hlow : (n - gapBefore n / 2 : ℝ) < r)
    (hhigh : r < n) : IsNearest (Float.ofNat n) r := by
  have hvalue := @exactValue_ofNat n hpos (by omega)
  refine @isNearest_of_neighbours (Float.ofNat n) r (n - gapBefore n) n (isFinite_ofNat (by omega))
    ?_ ?_ ?_ ?_
  · intro z hz hlt
    obtain ⟨negative, m, e, hform⟩ := exists_of_isFinite hz
    rw [hvalue] at hlt
    exact (le_sub_gapBefore hpos hle hform hlt).1
  · intro z _ hlt
    rw [hvalue] at hlt
    exact hlt.le
  · rw [hvalue]
    push_cast
    linarith
  · rw [hvalue]
    push_cast
    linarith

/-- Less than half way to its neighbours, the double before a whole number is the
nearest. -/
theorem isNearest_before (hpos : 0 < n) (hle : n ≤ 2 ^ 52) (hfull : 2 ^ 52 + 1 < unitsOf n)
    (hfinite : y.isFinite = true) (hvalue : exactValue y = n - gapBefore n)
    (hlow : (n - 3 / 2 * gapBefore n : ℝ) < r) (hhigh : r < (n - gapBefore n / 2 : ℝ)) :
    IsNearest y r := by
  have hbefore := canonical_before hpos hle
  have hunits := natCast_eq_unitsOf hle
  have hbits := unitsOf_bounds hpos hle
  refine @isNearest_of_neighbours y r (n - 2 * gapBefore n) n hfinite ?_ ?_ ?_ ?_
  · intro z hz hlt
    obtain ⟨negative, m, e, hform⟩ := exists_of_isFinite hz
    rw [hvalue, sub_gapBefore_eq hpos hle] at hlt
    have hprevious := (le_pred_of_lt (by omega) (by omega) hbefore.least hbefore.greatest
      hform hlt).1
    rw [Nat.sub_sub, Nat.cast_sub (by omega), ← gapBefore] at hprevious
    push_cast at hprevious
    linarith
  · intro z hz hgt
    by_contra hlt
    obtain ⟨negative, m, e, hform⟩ := exists_of_isFinite hz
    rw [hvalue] at hgt
    exact absurd hgt (le_sub_gapBefore hpos hle hform (not_le.mp hlt)).1.not_gt
  · rw [hvalue]
    push_cast
    linarith
  · rw [hvalue]
    push_cast
    linarith

end FormulaCalculator.Number
