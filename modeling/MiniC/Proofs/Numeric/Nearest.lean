import MiniC.Proofs.Numeric.Grid
import Mathlib.Tactic.Linarith
import Mathlib.Tactic.Ring
import Mathlib.Tactic.FieldSimp
import Mathlib.Tactic.Push
import Mathlib.Algebra.Order.Field.Basic
import Mathlib.Algebra.Order.Field.Rat
import Mathlib.Data.Nat.Cast.Order.Field

/-!
Rounding to the grid.

# Whole numbers

Half to even is specified by what it gives: a whole number no farther than
a half, and an even one if it is a half (`NearestWhole`). That is the whole
number nearest to a quotient, and the even one of two as near.

# Doubles

A quotient is divided by the spacing at its size and rounded to a whole
number. Of the numbers on the grid that are multiples of this spacing the
result is therefore the nearest. The others are finer and below the size
that the spacing is for: the least number of that size is nearer than any
of them (`NearestWhole.lt_of_below`), so that the result is the nearest on
the whole grid (`nearest_roundHalfEven`).

# Overflow

The grid goes on above the doubles. The nearest number on it is a double up
to the middle between the largest double and what comes next, which is even
(`Nearest.lt_limit_iff`).
-/

namespace MiniC.Binary64

-- ============================================================== distances

/-- The middle tells which of two numbers is nearer. -/
theorem abs_sub_le_iff_le_middle {a b : ℚ} (h : a < b) (u : ℚ) :
    |a - u| ≤ |b - u| ↔ u ≤ (a + b) / 2 := by
  rcases abs_cases (a - u) with ⟨ha, _⟩ | ⟨ha, _⟩ <;>
    rcases abs_cases (b - u) with ⟨hb, _⟩ | ⟨hb, _⟩ <;>
    rw [ha, hb] <;> constructor <;> intro _ <;> linarith

theorem abs_sub_le_iff_middle_le {a b : ℚ} (h : a < b) (u : ℚ) :
    |b - u| ≤ |a - u| ↔ (a + b) / 2 ≤ u := by
  rcases abs_cases (a - u) with ⟨ha, _⟩ | ⟨ha, _⟩ <;>
    rcases abs_cases (b - u) with ⟨hb, _⟩ | ⟨hb, _⟩ <;>
    rw [ha, hb] <;> constructor <;> intro _ <;> linarith

/-- Distances on a grid are those of whole numbers, scaled. -/
theorem abs_mul_sub {step : ℚ} (hstep : 0 < step) (a r : ℚ) :
    |a * step - r * step| = |a - r| * step := by
  rw [← sub_mul, abs_mul, abs_of_pos hstep]

-- ========================================================== whole numbers

/-- `m` is the whole number nearest to `r`, and the even one of two as
near. -/
structure NearestWhole (r : ℚ) (m : Nat) : Prop where
  half : |(m : ℚ) - r| ≤ 1 / 2
  even : |(m : ℚ) - r| = 1 / 2 → m % 2 = 0

theorem nearestWhole_down {whole : Nat} {part : ℚ} (hnonneg : 0 ≤ part)
    (hhalf : part ≤ 1 / 2) (htie : part = 1 / 2 → whole % 2 = 0) :
    NearestWhole (whole + part) whole := by
  have hdist : |(whole : ℚ) - (whole + part)| = part := by
    rw [abs_sub_comm, add_sub_cancel_left, abs_of_nonneg hnonneg]
  exact ⟨hdist.trans_le hhalf, fun h => htie (hdist.symm.trans h)⟩

theorem nearestWhole_up {whole : Nat} {part : ℚ} (hone : part ≤ 1)
    (hhalf : 1 / 2 ≤ part) (htie : part = 1 / 2 → whole % 2 = 1) :
    NearestWhole (whole + part) (whole + 1) := by
  have hdist : |((whole + 1 : Nat) : ℚ) - (whole + part)| = 1 - part := by
    rw [Nat.cast_succ, add_sub_add_left_eq_sub,
      abs_of_nonneg (sub_nonneg.mpr hone)]
  refine ⟨by rw [hdist]; linarith, fun h => ?_⟩
  rw [hdist] at h
  have hodd := htie (by linarith)
  omega

theorem nearestWhole_roundHalfEven (num : Nat) {den : Nat} (hden : 0 < den) :
    NearestWhole (num / den) (roundHalfEven num den) := by
  have hpos : (0 : ℚ) < den := Nat.cast_pos.mpr hden
  obtain ⟨part, hpart⟩ : ∃ part : ℚ, part = (num % den : Nat) / den := ⟨_, rfl⟩
  have hsplit : (num : ℚ) / den = (num / den : Nat) + part := by
    have h := congrArg (Nat.cast (R := ℚ)) (Nat.div_add_mod num den)
    push_cast at h
    rw [hpart, ← h]
    field_simp
  have hnonneg : 0 ≤ part := hpart ▸ div_nonneg (Nat.cast_nonneg _) hpos.le
  have hone : part ≤ 1 := by
    rw [hpart, div_le_one hpos]
    exact Nat.cast_le.mpr (Nat.mod_lt _ hden).le
  have hlt : den < 2 * (num % den) ↔ 1 / 2 < part := by
    rw [hpart, div_lt_div_iff₀ two_pos hpos, ← Nat.cast_lt (α := ℚ)]
    push_cast
    constructor <;> intro h <;> linarith
  have heq : 2 * (num % den) = den ↔ part = 1 / 2 := by
    rw [hpart, div_eq_div_iff hpos.ne' two_ne_zero, ← Nat.cast_inj (R := ℚ)]
    push_cast
    constructor <;> intro h <;> linarith
  unfold roundHalfEven
  dsimp only
  rw [hsplit]
  split
  · next hup =>
    rw [hlt, heq] at hup
    refine nearestWhole_up hone (hup.elim le_of_lt fun h => h.1.ge) fun h => ?_
    exact (hup.resolve_left h.not_gt).2
  · next hdown =>
    rw [hlt, heq, not_or, not_and, not_lt] at hdown
    refine nearestWhole_down hnonneg hdown.1 fun h => ?_
    have := hdown.2 h
    omega

namespace NearestWhole

variable {r : ℚ} {m k : Nat}

/-- Another whole number is at least as far as a half. -/
theorem half_le (h : NearestWhole r m) (hk : k ≠ m) :
    1 / 2 ≤ |(k : ℚ) - r| := by
  have hapart : (1 : ℚ) ≤ |(k : ℚ) - m| := by
    have hint : (1 : ℤ) ≤ |(k : ℤ) - m| :=
      Int.one_le_abs (sub_ne_zero.mpr (Nat.cast_injective.ne hk))
    exact_mod_cast hint
  have htriangle := abs_sub_le (k : ℚ) r m
  rw [abs_sub_comm r] at htriangle
  linarith [h.half]

theorem le (h : NearestWhole r m) (k : Nat) :
    |(m : ℚ) - r| ≤ |(k : ℚ) - r| := by
  by_cases hk : k = m
  · rw [hk]
  · exact le_trans h.half (h.half_le hk)

theorem even_of_eq (h : NearestWhole r m) (hk : k ≠ m)
    (heq : |(k : ℚ) - r| = |(m : ℚ) - r|) : m % 2 = 0 :=
  h.even (le_antisymm h.half (heq ▸ h.half_le hk))

end NearestWhole

-- =============================================================== rounding

/-- Of all numbers on the grid, `n` is nearest to the size `u`, and of two as
near the one with an even significand. -/
structure Nearest (u : ℚ) (n : Nat) : Prop where
  onGrid : spacing n ∣ n
  le : ∀ y, spacing y ∣ y → |(n : ℚ) - u| ≤ |(y : ℚ) - u|
  even : ∀ y, spacing y ∣ y → y ≠ n → |(y : ℚ) - u| = |(n : ℚ) - u| →
    significand n % 2 = 0

/-- A size below the grid is farther than the least size on it, and so than
the rounded one. -/
theorem NearestWhole.lt_of_below {r step y : ℚ} {m : Nat}
    (h : NearestWhole r m) (hstep : 0 < step) (hr : 2 ^ 52 ≤ r)
    (hy : y < 2 ^ 52 * step) :
    |(m : ℚ) - r| * step < |y - r * step| := by
  have hleast : |(m : ℚ) - r| ≤ r - 2 ^ 52 := by
    have hnear := h.le (2 ^ 52)
    rw [Nat.cast_pow, Nat.cast_ofNat] at hnear
    rwa [abs_sub_comm (2 ^ 52), abs_of_nonneg (sub_nonneg.mpr hr)] at hnear
  have hbelow : y < r * step :=
    lt_of_lt_of_le hy (mul_le_mul_of_nonneg_right hr hstep.le)
  calc |(m : ℚ) - r| * step
      ≤ (r - 2 ^ 52) * step := mul_le_mul_of_nonneg_right hleast hstep.le
    _ < r * step - y := by rw [sub_mul]; linarith
    _ = |y - r * step| := by
      rw [abs_sub_comm, abs_of_nonneg (sub_nonneg.mpr hbelow.le)]

/-- Rounding to 53 bits is rounding on the whole grid, as what is finer there
is too far away. -/
theorem NearestWhole.nearest {r : ℚ} {m e : Nat} (h : NearestWhole r m)
    (hm : m ≤ 2 ^ 53) (he : 0 < e → 2 ^ 52 ≤ m ∧ 2 ^ 52 ≤ r) :
    Nearest (r * 2 ^ e) (m * 2 ^ e) := by
  have hstep : (0 : ℚ) < 2 ^ e := by positivity
  have hdist : ∀ k : Nat,
      |((k * 2 ^ e : Nat) : ℚ) - r * 2 ^ e| = |(k : ℚ) - r| * 2 ^ e := by
    intro k
    push_cast
    exact abs_mul_sub hstep _ _
  have hfar : ∀ y : Nat, 0 < e → y < 2 ^ (52 + e) →
      |((m * 2 ^ e : Nat) : ℚ) - r * 2 ^ e| < |(y : ℚ) - r * 2 ^ e| := by
    intro y hpos hy
    rw [hdist]
    refine h.lt_of_below hstep (he hpos).2 ?_
    rw [← pow_add]
    exact_mod_cast hy
  -- a number on the grid is a multiple, which is compared as a whole number,
  -- or it is finer
  refine ⟨spacing_dvd_mul_two_pow hm e, fun y hy => ?_,
    fun y hy hne heq => ?_⟩
  · rcases exists_mul_two_pow_or_lt hy e with ⟨k, rfl⟩ | ⟨hpos, hlt⟩
    · rw [hdist, hdist]
      exact mul_le_mul_of_nonneg_right (h.le k) hstep.le
    · exact (hfar y hpos hlt).le
  · rcases exists_mul_two_pow_or_lt hy e with ⟨k, rfl⟩ | ⟨hpos, hlt⟩
    · rw [hdist, hdist] at heq
      have hk : k ≠ m := fun hkm => hne (congrArg (· * 2 ^ e) hkm)
      exact even_significand hm (fun hpos => (he hpos).1)
        (h.even_of_eq hk (mul_right_cancel₀ hstep.ne' heq))
    · exact absurd heq (hfar y hpos hlt).ne'

theorem le_roundHalfEven (num den : Nat) :
    num / den ≤ roundHalfEven num den := by
  unfold roundHalfEven
  dsimp only
  split <;> omega

/-- The quotient is rounded to the grid by dividing once, by the spacing at
its size. -/
theorem nearest_roundHalfEven (num : Nat) {den : Nat} (hden : 0 < den) :
    Nearest ((num : ℚ) / den)
      (roundHalfEven num (den * spacing (num / den))
        * spacing (num / den)) := by
  have hbound := roundHalfEven_le_of_spacing num den
  rw [Nat.shiftLeft_eq, Nat.one_mul] at hbound
  have hspacing : spacing (num / den) = 2 ^ ((num / den).log2 - 52) :=
    spacing_eq _
  have hpos := spacing_pos (num / den)
  have hsize : 0 < (num / den).log2 - 52 →
      2 ^ 52 ≤ num / (den * spacing (num / den)) := by
    intro h
    rw [← Nat.div_div_eq_div_mul, Nat.le_div_iff_mul_le hpos, hspacing]
    exact le_of_log2 h
  generalize spacing (num / den) = step at *
  generalize (num / den).log2 - 52 = e at *
  subst hspacing
  have hu : (num : ℚ) / den = num / (den * 2 ^ e : Nat) * 2 ^ e := by
    have hdenq : (den : ℚ) ≠ 0 := Nat.cast_ne_zero.mpr hden.ne'
    push_cast
    field_simp
  rw [hu]
  refine (nearestWhole_roundHalfEven num (Nat.mul_pos hden hpos)).nearest hbound
    fun he => ⟨Nat.le_trans (hsize he) (le_roundHalfEven _ _), ?_⟩
  have hfloor := Nat.cast_le (α := ℚ) |>.mpr (hsize he)
  rw [Nat.cast_pow, Nat.cast_ofNat] at hfloor
  exact le_trans hfloor Nat.cast_div_le

-- =============================================================== overflow

/-- The result stays below 2¹⁰²⁴ exactly up to the middle between this and the
largest double; in the middle the even one of them is 2¹⁰²⁴. -/
theorem Nearest.lt_limit_iff {u : ℚ} {n : Nat} (h : Nearest u n) :
    n < limit ↔ u < (largest + limit) / 2 := by
  have hlimit := h.le limit spacing_dvd_limit
  have hlargest := h.le largest spacing_dvd_largest
  constructor
  · intro hn
    have hle : (n : ℚ) ≤ largest := Nat.cast_le.mpr (le_largest h.onGrid hn)
    have hnq : (n : ℚ) < limit := Nat.cast_lt.mpr hn
    have hmiddle := (abs_sub_le_iff_le_middle hnq u).mp hlimit
    refine lt_of_le_of_ne (by linarith) fun hu => ?_
    have htie := (abs_sub_le_iff_middle_le hnq u).mpr (by linarith)
    have heven := h.even limit spacing_dvd_limit hn.ne'
      (le_antisymm htie hlimit)
    have hn' : (n : ℚ) = largest := by linarith
    rw [Nat.cast_injective hn', significand_largest] at heven
    cases heven
  · intro hu
    by_contra hn
    have hge : (limit : ℚ) ≤ n := Nat.cast_le.mpr (Nat.le_of_not_lt hn)
    have hgap : (largest : ℚ) < limit := Nat.cast_lt.mpr largest_lt_limit
    have hmiddle := (abs_sub_le_iff_middle_le (by linarith) u).mp hlargest
    linarith

end MiniC.Binary64
