import MiniC.Numeric.Binary64

/-!
The fewest decimal digits that read back as a given double.

# What reads back

A decimal reads back as a double when it lies between the midpoints to the
double's two neighbours; a midpoint itself does so where the significand
is even, because reading rounds half to even. Below a power of two the
neighbour is half as far away as above it. All of this is exact in
quarters of a unit (`readBack`).

# Which of them is chosen

The decimals with `n` digits form a grid around the value, and if any
point of that grid reads back, so does one of the two that enclose the
value. `shortest` therefore looks at those two for 1, 2, … 17 digits and
stops at the first grid with a hit; of two hits the nearer one is taken,
of two as near the upper one. At 17 digits the grid is finer than that of
the doubles, so there is always a hit.
-/

namespace MiniC

/-- The decimal `coefficient · 10 ^ exponent`. -/
structure Decimal where
  coefficient : Nat
  exponent : Int
deriving DecidableEq

namespace Binary64

/-- The decimals that read back as one double: from `low` to `high` in
quarters of a unit, the ends included where the interval is `closed`. -/
structure ReadBack where
  low : Nat
  high : Nat
  closed : Bool

/-- Everything nearer to `x` than to any other double. -/
def Finite.readBack (x : Finite) : ReadBack :=
  let step := spacing x.units
  let significand := x.units / step
  let below := if significand = 1 <<< 52 ∧ 1 < step then step else 2 * step
  { low := 4 * x.units - below
    high := 4 * x.units + 2 * step
    closed := significand % 2 == 0 }

/-- Whether the fraction `num / den` of quarter units reads back. -/
def ReadBack.holds (r : ReadBack) (num den : Nat) : Bool :=
  if r.closed then
    r.low * den ≤ num && num ≤ r.high * den
  else
    r.low * den < num && num < r.high * den

/-- The weight of the last place `10 ^ exponent` as a fraction of quarter
units. -/
def placeWeight : Int → Nat × Nat
  | .ofNat e => (Nat.pow 10 e <<< 1076, 1)
  | .negSucc e => (1 <<< 1076, Nat.pow 10 (e + 1))

/-- How many places to shift a value below one, up to `fuel`, until it has
a digit before the point. -/
def leadingPlace (units : Nat) : Nat → Nat → Nat
  | 0, places => places
  | fuel + 1, places =>
    if 1 <<< 1074 ≤ units * Nat.pow 10 places then places
    else leadingPlace units fuel (places + 1)

/-- The decimal exponent of the first digit of a value that is not zero. -/
def Finite.magnitude (x : Finite) : Int :=
  let whole := x.units >>> 1074
  if whole = 0 then
    -Int.ofNat (leadingPlace x.units 400 1)
  else
    Int.ofNat ((Nat.toDigits 10 whole).length - 1)

/-- The better of the two decimals around `x` whose last place is
`10 ^ exponent`, if one of them reads back. -/
def Finite.onPlace? (x : Finite) (exponent : Int) : Option Decimal :=
  let (num, den) := placeWeight exponent
  let r := x.readBack
  let value := 4 * x.units * den
  let lower := value / num
  let upper := lower + 1
  match r.holds (lower * num) den, r.holds (upper * num) den with
  | false, false => none
  | true, false => some ⟨lower, exponent⟩
  | false, true => some ⟨upper, exponent⟩
  | true, true =>
    if value - lower * num < upper * num - value then some ⟨lower, exponent⟩
    else some ⟨upper, exponent⟩

/-- The decimal with the fewest digits that reads back as `x`, tried from
`digits` digits on. -/
def Finite.shortestFrom (x : Finite) (magnitude : Int) :
    Nat → Nat → Decimal
  | 0, _ => ⟨0, 0⟩
  | fuel + 1, digits =>
    match x.onPlace? (magnitude + 1 - Int.ofNat digits) with
    | some d => d
    | none => x.shortestFrom magnitude fuel (digits + 1)

/-- The decimal with the fewest digits that reads back as `x`, and the
nearest to `x` of those. -/
def Finite.shortest (x : Finite) : Decimal :=
  if x.units = 0 then ⟨0, 0⟩ else x.shortestFrom x.magnitude 17 1

end Binary64

end MiniC
