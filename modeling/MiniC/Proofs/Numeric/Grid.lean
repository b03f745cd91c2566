import MiniC.Numeric.Binary64
import Mathlib.Algebra.Order.Ring.Nat

/-!
The grid of the doubles.

# One form

What is on the grid is what 53 bits hold at some scale
(`spacing_dvd_mul_two_pow`), and one form of it has all of the 53 bits where
there is a scale at all (`exists_eq_mul_two_pow`). The significand is read
off that form, so that whether its last bit is zero is a property of the
number and not of a way to write it.

# Neighbours

Two facts say all about distances there. At a size that asks for the scale
`2 ^ e`, what is on the grid is a multiple of `2 ^ e` or too small for that
scale (`exists_mul_two_pow_or_lt`), so that numbers of the same size are
compared as whole numbers; and from a significand to the next there is
nothing between (`succ_mul_two_pow_le`).
-/

namespace MiniC.Binary64

-- ================================================================== forms

/-- The spacing at a size is the one that leaves 53 bits. -/
theorem spacing_mul_two_pow {m e : Nat} (hm : m < 2 ^ 53)
    (he : 0 < e → 2 ^ 52 ≤ m) : spacing (m * 2 ^ e) = 2 ^ e := by
  rw [spacing_eq]
  show 2 ^ _ = 2 ^ e
  congr 1
  rcases Nat.eq_zero_or_pos e with rfl | hpos
  · rw [Nat.pow_zero, Nat.mul_one]
    rcases Nat.eq_zero_or_pos m with rfl | hm0
    · rfl
    · have := (Nat.log2_lt hm0.ne').mpr hm
      omega
  · have hge := he hpos
    have hne : m * 2 ^ e ≠ 0 :=
      (Nat.mul_pos (by omega) (Nat.two_pow_pos e)).ne'
    have hlow : 52 + e ≤ (m * 2 ^ e).log2 := by
      rw [Nat.le_log2 hne, Nat.pow_add]
      exact Nat.mul_le_mul_right _ hge
    have hhigh : (m * 2 ^ e).log2 < 53 + e := by
      rw [Nat.log2_lt hne, Nat.pow_add]
      exact Nat.mul_lt_mul_of_pos_right hm (Nat.two_pow_pos e)
    omega

/-- The significand of a number on the grid: what it is in spacings. -/
def significand (units : Nat) : Nat :=
  units / spacing units

theorem significand_mul_two_pow {m e : Nat} (hm : m < 2 ^ 53)
    (he : 0 < e → 2 ^ 52 ≤ m) : significand (m * 2 ^ e) = m := by
  rw [significand, spacing_mul_two_pow hm he,
    Nat.mul_div_cancel _ (Nat.two_pow_pos e)]

/-- A significand with 53 bits is read back, and a carry out of them leaves
a power of two. -/
theorem even_significand {m e : Nat} (hm : m ≤ 2 ^ 53)
    (he : 0 < e → 2 ^ 52 ≤ m) (heven : m % 2 = 0) :
    significand (m * 2 ^ e) % 2 = 0 := by
  rcases Nat.lt_or_ge m (2 ^ 53) with hlt | hge
  · rw [significand_mul_two_pow hlt he]
    exact heven
  · have hcarry : m * 2 ^ e = 2 ^ 52 * 2 ^ (e + 1) := by
      rw [Nat.le_antisymm hm hge, Nat.pow_succ 2 e]
      omega
    rw [hcarry, significand_mul_two_pow (by decide) (fun _ => le_rfl)]
    rfl

/-- What is rounded to a scale at all has 53 bits at that scale. -/
theorem le_of_log2 {n : Nat} (h : 0 < n.log2 - 52) :
    2 ^ 52 * 2 ^ (n.log2 - 52) ≤ n := by
  have hn : n ≠ 0 := by
    rintro rfl
    exact absurd h (by decide)
  rw [← Nat.pow_add, show 52 + (n.log2 - 52) = n.log2 by omega]
  exact Nat.log2_self_le hn

/-- What is on the grid has one form with 53 bits. -/
theorem exists_eq_mul_two_pow {n : Nat} (h : spacing n ∣ n) :
    ∃ m e, n = m * 2 ^ e ∧ m < 2 ^ 53 ∧ (0 < e → 2 ^ 52 ≤ m) := by
  have hlow := le_of_log2 (n := n)
  have hhigh : n < 2 ^ (53 + (n.log2 - 52)) :=
    Nat.lt_of_lt_of_le Nat.lt_log2_self
      (Nat.pow_le_pow_right (by decide) (by omega))
  rw [Nat.pow_add] at hhigh
  obtain ⟨m, hm⟩ := exists_eq_mul_left_of_dvd h
  rw [spacing_eq] at hm
  change n = m * 2 ^ _ at hm
  generalize n.log2 - 52 = e at *
  subst hm
  exact ⟨m, e, rfl, Nat.lt_of_mul_lt_mul_right hhigh,
    fun he => Nat.le_of_mul_le_mul_right (hlow he) (Nat.two_pow_pos e)⟩

theorem spacing_dvd_mul_two_pow {m : Nat} (hm : m ≤ 2 ^ 53) (e : Nat) :
    spacing (m * 2 ^ e) ∣ m * 2 ^ e := by
  rw [← Nat.shiftLeft_eq]
  exact spacing_dvd_shiftLeft hm

-- ============================================================= neighbours

/-- A number on the grid is a multiple of a given width, or below the size
that this width is for. -/
theorem exists_mul_two_pow_or_lt {y : Nat} (h : spacing y ∣ y) (e : Nat) :
    (∃ k, y = k * 2 ^ e) ∨ (0 < e ∧ y < 2 ^ (52 + e)) := by
  rcases Nat.eq_zero_or_pos e with rfl | he
  · exact Or.inl ⟨y, (Nat.mul_one y).symm⟩
  rcases Nat.lt_or_ge y (2 ^ (52 + e)) with hlt | hge
  · exact Or.inr ⟨he, hlt⟩
  · have hy : y ≠ 0 := (Nat.lt_of_lt_of_le (Nat.two_pow_pos _) hge).ne'
    have hlog : 52 + e ≤ y.log2 := (Nat.le_log2 hy).mpr hge
    rw [spacing_eq] at h
    exact Or.inl (exists_eq_mul_left_of_dvd
      (Nat.dvd_trans (Nat.pow_dvd_pow 2 (by omega)) h))

/-- Nothing on the grid is between `m * 2 ^ e` and the next significand. -/
theorem succ_mul_two_pow_le {m e y : Nat} (he : 0 < e → 2 ^ 52 ≤ m)
    (hy : spacing y ∣ y) (hlt : m * 2 ^ e < y) : (m + 1) * 2 ^ e ≤ y := by
  rcases exists_mul_two_pow_or_lt hy e with ⟨k, rfl⟩ | ⟨hpos, hsmall⟩
  · exact Nat.mul_le_mul_right _ (Nat.lt_of_mul_lt_mul_right hlt)
  · rw [Nat.pow_add] at hsmall
    have := Nat.mul_le_mul_right (2 ^ e) (he hpos)
    omega

-- =================================================== the end of the range

/-- The places behind the 53 bits of the largest doubles, in units. It is
irreducible so that powers of it are not written out. -/
@[irreducible] def topExponent : Nat :=
  2045

/-- The largest finite double, in units. -/
def largest : Nat :=
  (2 ^ 53 - 1) * 2 ^ topExponent

theorem limit_eq : limit = 2 ^ 53 * 2 ^ topExponent := by
  have htop : 2098 = 53 + topExponent := by rw [topExponent]
  rw [limit, htop, Nat.shiftLeft_eq, Nat.one_mul, Nat.pow_add]

theorem largest_lt_limit : largest < limit := by
  rw [largest, limit_eq]
  exact Nat.mul_lt_mul_of_pos_right (by decide) (Nat.two_pow_pos _)

theorem spacing_dvd_largest : spacing largest ∣ largest := by
  rw [largest]
  exact spacing_dvd_mul_two_pow (by decide) _

theorem spacing_dvd_limit : spacing limit ∣ limit := by
  rw [limit_eq]
  exact spacing_dvd_mul_two_pow le_rfl _

theorem significand_largest : significand largest % 2 = 1 := by
  rw [largest, significand_mul_two_pow (by decide) (fun _ => by decide)]
  rfl

theorem le_largest {y : Nat} (h : spacing y ∣ y) (hy : y < limit) :
    y ≤ largest := by
  rw [limit_eq] at hy
  rw [largest]
  rcases exists_mul_two_pow_or_lt h topExponent with ⟨k, hy'⟩ | ⟨-, hlt⟩
  · rw [hy'] at hy ⊢
    have hk := Nat.lt_of_mul_lt_mul_right hy
    exact Nat.mul_le_mul_right _ (Nat.le_sub_one_of_lt hk)
  · rw [Nat.pow_add] at hlt
    exact Nat.le_trans hlt.le (Nat.mul_le_mul_right _ (by decide))

end MiniC.Binary64
