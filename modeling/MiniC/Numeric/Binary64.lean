/-!
The doubles that a numeric literal can denote, and the rounding of an
exact quotient to the nearest of them.

# Values as whole numbers of units

A literal has no sign, so only the non-negative half of binary64 occurs,
and never a NaN. Every finite value of it is a whole number of units of
2⁻¹⁰⁷⁴, the smallest positive double; a `Finite` is that number. Which
numbers qualify is one divisibility: the spacing of the grid at a size is
the weight of the last of 53 significant bits, and never less than a unit.

# Rounding

`nearest` divides once, by the spacing at the size of the quotient, and
rounds half to even. A carry out of 53 bits lands on the next power of
two, which the coarser grid above it holds as well
(`spacing_dvd_shiftLeft`), so the result is a double without a second
rounding.
-/

namespace MiniC

namespace Binary64

/-- The distance between neighbouring doubles at the size of `units`: what
53 bits hold is exact to the unit, what is longer to its 53rd bit. -/
def spacing (units : Nat) : Nat :=
  1 <<< (units.log2 - 52)

/-- Where the finite doubles end, in units: 2¹⁰²⁴. -/
def limit : Nat :=
  1 <<< 2098

/-- A finite double that is not negative, as a number of units of 2⁻¹⁰⁷⁴. -/
structure Finite where
  units : Nat
  onGrid : spacing units ∣ units
  inRange : units < limit
deriving DecidableEq

end Binary64

/-- A double that is not negative and not a NaN. -/
inductive Binary64 where
  | finite (value : Binary64.Finite)
  | infinity
deriving DecidableEq

namespace Binary64

/-- The whole number nearest to `num / den`; of two as near, the even one. -/
def roundHalfEven (num den : Nat) : Nat :=
  let whole := num / den
  let excess := num % den
  if den < 2 * excess ∨ (2 * excess = den ∧ whole % 2 = 1) then
    whole + 1
  else
    whole

-- ========================================================= on the grid

theorem spacing_eq (units : Nat) :
    spacing units = Nat.pow 2 (units.log2 - 52) := by
  unfold spacing
  rw [Nat.shiftLeft_eq, Nat.one_mul]
  rfl

theorem spacing_pos (units : Nat) : 0 < spacing units := by
  rw [spacing_eq]
  exact Nat.two_pow_pos _

theorem roundHalfEven_le (num den : Nat) :
    roundHalfEven num den ≤ num / den + 1 := by
  unfold roundHalfEven
  dsimp only
  split <;> omega

/-- A significand of 53 bits at any scale is a double, and so is the
carry out of them: there the grid is twice as wide, and the value a power
of two. -/
theorem spacing_dvd_shiftLeft {m e : Nat} (h : m ≤ 1 <<< 53) :
    spacing (m <<< e) ∣ m <<< e := by
  rw [Nat.shiftLeft_eq, Nat.one_mul] at h
  rw [Nat.shiftLeft_eq, spacing_eq]
  rcases Nat.eq_zero_or_pos m with rfl | hm
  · simp
  have hpos : m * 2 ^ e ≠ 0 :=
    Nat.ne_of_gt (Nat.mul_pos hm (Nat.two_pow_pos e))
  rcases Nat.lt_or_ge m (2 ^ 53) with hlt | hge
  · have hsize : (m * 2 ^ e).log2 < 53 + e := by
      rw [Nat.log2_lt hpos, Nat.pow_add]
      exact Nat.mul_lt_mul_of_pos_right hlt (Nat.two_pow_pos e)
    have hexp : (m * 2 ^ e).log2 - 52 ≤ e := by omega
    exact Nat.dvd_trans (Nat.pow_dvd_pow 2 hexp) (Nat.dvd_mul_left ..)
  · have hm : m = 2 ^ 53 := Nat.le_antisymm h hge
    rw [hm, ← Nat.pow_add, Nat.log2_two_pow]
    exact Nat.pow_dvd_pow 2 (by omega)

/-- Rounding to the grid that fits the quotient's size never needs more
than the 53 bits and a carry. -/
theorem roundHalfEven_le_of_spacing (num den : Nat) :
    roundHalfEven num (den * spacing (num / den)) ≤ 1 <<< 53 := by
  rw [Nat.shiftLeft_eq, Nat.one_mul]
  refine Nat.le_trans (roundHalfEven_le ..) ?_
  rw [← Nat.div_div_eq_div_mul]
  have hsize : num / den < 2 ^ 53 * spacing (num / den) := by
    rw [spacing_eq]
    refine Nat.lt_of_lt_of_le Nat.lt_log2_self ?_
    show _ ≤ 2 ^ 53 * 2 ^ _
    rw [← Nat.pow_add]
    exact Nat.pow_le_pow_right (by decide) (by omega)
  exact Nat.div_lt_of_lt_mul (Nat.mul_comm .. ▸ hsize)

-- ============================================================ rounding

/-- The double nearest to `num / den`: half to even, and infinity from the
middle between the largest double and 2¹⁰²⁴ on. -/
def nearest (num den : Nat) : Binary64 :=
  let scaled := num <<< 1074
  let exponent := (scaled / den).log2 - 52
  let units := roundHalfEven scaled (den <<< exponent) <<< exponent
  if h : units < limit then
    .finite ⟨units, spacing_dvd_shiftLeft (by
      have hden : den <<< exponent = den * spacing (scaled / den) := by
        rw [Nat.shiftLeft_eq, spacing_eq]
        rfl
      rw [hden]
      exact roundHalfEven_le_of_spacing ..), h⟩
  else
    .infinity

end Binary64

end MiniC
