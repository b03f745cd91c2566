import MiniC.Proofs.Numeric.Nearest

/-!
The double that stands for a value.

A value below the overflow has the nearest double, and of two as near the
one whose last bit is zero; any other has infinity (`Rounds`). This says
nothing of how rounding is done: `nearest` gives such a double for every
quotient (`rounds_nearest`), and there is one at most (`Rounds.unique`), as
of two neighbours on the grid one is odd.

Rounding keeps the order (`Rounds.value_le`). A finite double stands for
its own value (`Finite.rounds`), so that what is rounded may be compared
with any double by their values before rounding.
-/

namespace MiniC.Binary64

-- =========================================================== the relation

/-- The value of a finite double. -/
def Finite.value (x : Finite) : ℚ :=
  x.units / 2 ^ 1074

/-- Whether the last of the 53 bits of a double is zero. -/
def Finite.IsEven (x : Finite) : Prop :=
  significand x.units % 2 = 0

/-- Where infinity begins: the middle between the largest double and 2¹⁰²⁴. -/
def overflow : ℚ :=
  2 ^ 1024 - 2 ^ 970

/-- The double that stands for a value: below the overflow the nearest one,
and of two as near the even one, and from there on infinity. -/
inductive Rounds (q : ℚ) : Binary64 → Prop
  | finite {x : Finite} : q < overflow →
      (∀ y : Finite, |x.value - q| ≤ |y.value - q|) →
      (∀ y : Finite, y ≠ x → |y.value - q| = |x.value - q| → x.IsEven) →
      Rounds q (.finite x)
  | infinity : overflow ≤ q → Rounds q .infinity

theorem overflow_mul : overflow * 2 ^ 1074 = ((largest + limit) / 2 : ℚ) := by
  have hlow : (2 : ℚ) ^ 1024 = 2 ^ 54 * 2 ^ 970 := by rw [← pow_add]
  have htop : (2 : ℚ) ^ topExponent = 2 * (2 ^ 970 * 2 ^ 1074) := by
    rw [← pow_add, ← pow_succ', topExponent]
  rw [overflow, hlow, largest, limit_eq]
  push_cast
  rw [htop]
  generalize (2 : ℚ) ^ 970 = a
  generalize (2 : ℚ) ^ 1074 = b
  ring

theorem abs_value_sub (x : Finite) (q : ℚ) :
    |x.value - q| = |(x.units : ℚ) - q * 2 ^ 1074| / 2 ^ 1074 := by
  have hpos : (0 : ℚ) < 2 ^ 1074 := by positivity
  rw [Finite.value, eq_div_iff hpos.ne', ← abs_mul_sub hpos,
    div_mul_cancel₀ _ hpos.ne']

/-- Distances may be compared in units. -/
theorem abs_value_sub_le_iff (x y : Finite) (q : ℚ) :
    |x.value - q| ≤ |y.value - q| ↔
      |(x.units : ℚ) - q * 2 ^ 1074| ≤ |(y.units : ℚ) - q * 2 ^ 1074| := by
  have hpos : (0 : ℚ) < 2 ^ 1074 := by positivity
  rw [abs_value_sub, abs_value_sub, div_le_div_iff_of_pos_right hpos]

theorem abs_value_sub_eq_iff (x y : Finite) (q : ℚ) :
    |x.value - q| = |y.value - q| ↔
      |(x.units : ℚ) - q * 2 ^ 1074| = |(y.units : ℚ) - q * 2 ^ 1074| := by
  rw [le_antisymm_iff, abs_value_sub_le_iff, abs_value_sub_le_iff,
    ← le_antisymm_iff]

theorem Finite.eq_of_units {x y : Finite} (h : x.units = y.units) : x = y := by
  cases x
  cases y
  cases h
  rfl

theorem Nearest.rounds {q : ℚ} {n : Nat} (h : Nearest (q * 2 ^ 1074) n)
    (hn : n < limit) : Rounds q (.finite ⟨n, h.onGrid, hn⟩) := by
  refine .finite ?_ (fun y => ?_) fun y hne heq => ?_
  · have hlt := h.lt_limit_iff.mp hn
    rw [← overflow_mul] at hlt
    exact lt_of_mul_lt_mul_right hlt (by positivity)
  · rw [abs_value_sub_le_iff]
    exact h.le _ y.onGrid
  · rw [abs_value_sub_eq_iff] at heq
    exact h.even _ y.onGrid (fun hunits => hne (Finite.eq_of_units hunits)) heq

theorem cast_shiftLeft_div (num den e : Nat) :
    ((num <<< e : Nat) : ℚ) / den = num / den * 2 ^ e := by
  rw [Nat.shiftLeft_eq]
  push_cast
  ring

/-- The double that a quotient is rounded to is the one that stands for its
value. -/
theorem rounds_nearest (num : Nat) {den : Nat} (hden : 0 < den) :
    Rounds ((num : ℚ) / den) (nearest num den) := by
  have hpos : (0 : ℚ) < 2 ^ 1074 := by positivity
  have hnear := nearest_roundHalfEven (num <<< 1074) hden
  have hunits : roundHalfEven (num <<< 1074)
      (den <<< ((num <<< 1074 / den).log2 - 52))
        <<< ((num <<< 1074 / den).log2 - 52)
      = roundHalfEven (num <<< 1074) (den * spacing (num <<< 1074 / den))
        * spacing (num <<< 1074 / den) := by
    rw [Nat.shiftLeft_eq, Nat.shiftLeft_eq den, spacing_eq]
    rfl
  rw [cast_shiftLeft_div, ← hunits] at hnear
  unfold nearest
  dsimp only
  split
  · next h => exact hnear.rounds h
  · next h =>
    refine .infinity ?_
    have hge := mt hnear.lt_limit_iff.mpr h
    rw [← overflow_mul, not_lt] at hge
    exact le_of_mul_le_mul_right hge hpos

-- ============================================================= one double

/-- Two doubles that are nearest to one size are not both even. -/
theorem not_even_of_lt {u : ℚ} {x y : Finite}
    (hx : ∀ z : Finite, |(x.units : ℚ) - u| ≤ |(z.units : ℚ) - u|)
    (hxy : x.units < y.units)
    (heq : |(x.units : ℚ) - u| = |(y.units : ℚ) - u|) (heven : x.IsEven) :
    ¬ y.IsEven := by
  have hxyq : (x.units : ℚ) < y.units := Nat.cast_lt.mpr hxy
  have hmiddle : u = (x.units + y.units) / 2 :=
    le_antisymm ((abs_sub_le_iff_le_middle hxyq u).mp heq.le)
      ((abs_sub_le_iff_middle_le hxyq u).mp heq.ge)
  obtain ⟨m, e, hunits, hm, he⟩ := exists_eq_mul_two_pow x.onGrid
  rw [Finite.IsEven, hunits, significand_mul_two_pow hm he] at heven
  have hnext : (m + 1) * 2 ^ e ≤ y.units :=
    succ_mul_two_pow_le he y.onGrid (hunits ▸ hxy)
  have hstep : x.units < (m + 1) * 2 ^ e := by
    rw [hunits]
    exact Nat.mul_lt_mul_of_pos_right (Nat.lt_succ_self m) (Nat.two_pow_pos e)
  -- the next double after `x` is `y`, as it would else be nearer than both
  have hsucc : y.units = (m + 1) * 2 ^ e := by
    by_contra hne
    have hlt : (m + 1) * 2 ^ e < y.units := by omega
    have hnear := hx ⟨_, spacing_dvd_mul_two_pow hm e,
      Nat.lt_trans hlt y.inRange⟩
    have hltq : (((m + 1) * 2 ^ e : Nat) : ℚ) < y.units := Nat.cast_lt.mpr hlt
    have hstepq : (x.units : ℚ) < ((m + 1) * 2 ^ e : Nat) :=
      Nat.cast_lt.mpr hstep
    have := (abs_sub_le_iff_le_middle hstepq u).mp hnear
    linarith
  rw [Finite.IsEven, hsucc, significand_mul_two_pow (by omega)
    fun h => Nat.le_succ_of_le (he h)]
  omega

/-- One double at most stands for a value. -/
theorem Rounds.unique {q : ℚ} {a b : Binary64} (ha : Rounds q a)
    (hb : Rounds q b) : a = b := by
  cases ha with
  | infinity hq =>
    cases hb with
    | infinity _ => rfl
    | finite hq' _ _ => exact absurd hq' (not_lt.mpr hq)
  | @finite x hq hx hevenx =>
    cases hb with
    | infinity hq' => exact absurd hq (not_lt.mpr hq')
    | @finite y _ hy heveny =>
      by_cases hne : x = y
      · rw [hne]
      have heq : |x.value - q| = |y.value - q| := le_antisymm (hx y) (hy x)
      have hx' := hevenx y (Ne.symm hne) heq.symm
      have hy' := heveny x hne heq
      simp only [abs_value_sub_le_iff, abs_value_sub_eq_iff] at hx hy heq
      rcases Nat.lt_trichotomy x.units y.units with hlt | hunits | hlt
      · exact absurd hy' (not_even_of_lt hx hlt heq hx')
      · rw [Finite.eq_of_units hunits]
      · exact absurd hx' (not_even_of_lt hy hlt heq.symm hy')

-- ================================================================== order

/-- The value of a double, where infinity is above all numbers. -/
def value : Binary64 → WithTop ℚ
  | .finite x => x.value
  | .infinity => ⊤

theorem Finite.value_nonneg (x : Finite) : 0 ≤ x.value :=
  div_nonneg (Nat.cast_nonneg _) (by positivity)

theorem value_nonneg (a : Binary64) : 0 ≤ a.value := by
  cases a with
  | finite x => exact WithTop.coe_le_coe.mpr x.value_nonneg
  | infinity => exact le_top

/-- Rounding keeps the order. -/
theorem Rounds.value_le {p q : ℚ} {a b : Binary64} (ha : Rounds p a)
    (hb : Rounds q b) (h : p ≤ q) : a.value ≤ b.value := by
  cases hb with
  | infinity _ => exact le_top
  | @finite y hq hy heveny =>
    cases ha with
    | infinity hp => exact absurd hq (not_lt.mpr (le_trans hp h))
    | @finite x hp hx hevenx =>
      by_contra hlt
      rw [value, value, WithTop.coe_le_coe, not_le] at hlt
      -- the values are then the same, and both doubles stand for it
      have hq' := (abs_sub_le_iff_le_middle hlt q).mp (hy x)
      have hp' := (abs_sub_le_iff_middle_le hlt p).mp (hx y)
      obtain rfl : p = q := le_antisymm h (le_trans hq' hp')
      cases (Rounds.finite hp hx hevenx).unique (.finite hq hy heveny)
      exact absurd hlt (lt_irrefl _)

/-- A finite double stands for its own value. -/
theorem Finite.rounds (x : Finite) : Rounds x.value (.finite x) := by
  refine .finite ?_ (fun y => ?_) fun y hne heq => ?_
  · have hle : (x.units : ℚ) ≤ largest :=
      Nat.cast_le.mpr (le_largest x.onGrid x.inRange)
    have hlt : (largest : ℚ) < limit := Nat.cast_lt.mpr largest_lt_limit
    rw [Finite.value, div_lt_iff₀ (by positivity), overflow_mul]
    linarith
  · rw [sub_self, abs_zero]
    exact abs_nonneg _
  · rw [sub_self, abs_zero, abs_eq_zero, sub_eq_zero, Finite.value,
      Finite.value, div_left_inj' (by positivity), Nat.cast_inj] at heq
    exact absurd (Finite.eq_of_units heq) hne

theorem Finite.exists_units_eq_two_pow {e : Nat} (he : e < 53 + topExponent) :
    ∃ x : Finite, x.units = 2 ^ e := by
  have hgrid := spacing_dvd_mul_two_pow (m := 1) (by decide) e
  refine ⟨⟨_, hgrid, ?_⟩, Nat.one_mul _⟩
  rw [Nat.one_mul, limit_eq, ← Nat.pow_add]
  exact Nat.pow_lt_pow_right (by decide) he

/-- The powers of two in the range are doubles. -/
theorem Finite.exists_value_eq_two_pow {k : Nat} (hk : k < 1024) :
    ∃ x : Finite, x.value = 2 ^ k := by
  have hexp : k + 1074 < 53 + topExponent := by
    rw [topExponent]
    omega
  have hpos : (0 : ℚ) < 2 ^ 1074 := by positivity
  obtain ⟨x, hx⟩ := exists_units_eq_two_pow hexp
  refine ⟨x, ?_⟩
  rw [Finite.value, hx, Nat.cast_pow, Nat.cast_ofNat, pow_add _ k,
    mul_div_cancel_right₀ _ hpos.ne']

end MiniC.Binary64
