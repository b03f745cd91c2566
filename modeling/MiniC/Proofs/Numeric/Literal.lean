import MiniC.Proofs.Numeric.Rounds
import MiniC.Proofs.Lexical.Acceptance
import Mathlib.Algebra.Order.Monoid.WithTop

/-!
The numbers of literals.

# Values

The value of a literal is positional, before the point and behind it
(`Numeric.literalValue`). The scan takes all its digits for one whole
number and divides that by a power of ten, which is the same value
(`Numeric.literalValue_eq`). Zeros in front have no part in it, so that no
number of them makes a literal too wide.

# Payloads

A value is carried as a word where no point is written and one is wide
enough, and else as the double that stands for it (`Number.Denotes`). This
says which number a literal has by its value and its point alone, and there
is one at most (`Number.Denotes.unique`). The least value without a word is
2⁶³, which is a double: whatever is rounded from there on is no less than
it, and so no less than any word (`Number.Denotes.value_le`).
-/

namespace MiniC

namespace Numeric

-- ================================================================= values

/-- The value of a digit. -/
def digitValue (c : Char) : Nat :=
  c.toNat - '0'.toNat

/-- The value of the digits before a point. -/
def wholeValue : List Char → Nat
  | [] => 0
  | c :: l => digitValue c * 10 ^ l.length + wholeValue l

/-- The value of the digits behind a point. -/
def fractionValue : List Char → ℚ
  | [] => 0
  | c :: l => (digitValue c + fractionValue l) / 10

/-- The digits of a literal before its point. -/
def wholePart (l : List Char) : List Char :=
  l.takeWhile (· != '.')

/-- The digits of a literal behind its point. -/
def fractionPart (l : List Char) : List Char :=
  (l.dropWhile (· != '.')).drop 1

/-- The exact value of a literal. -/
def literalValue (l : List Char) : ℚ :=
  wholeValue (wholePart l) + fractionValue (fractionPart l)

theorem wholeValue_eq (l : List Char) :
    wholeValue l = Nat.ofDigitChars 10 l 0 := by
  induction l with
  | nil => rfl
  | cons c l ih =>
    rw [wholeValue, ih, Nat.ofDigitChars_cons, Nat.mul_zero, Nat.zero_add,
      @Nat.ofDigitChars_eq_ofDigitChars_zero l (c.toNat - _), Nat.mul_comm]
    rfl

theorem fractionValue_eq (l : List Char) :
    fractionValue l = Nat.ofDigitChars 10 l 0 / 10 ^ l.length := by
  induction l with
  | nil => simp [fractionValue]
  | cons c l ih =>
    rw [← wholeValue_eq] at ih ⊢
    rw [fractionValue, ih, wholeValue, List.length_cons, pow_succ]
    push_cast
    field_simp

/-- Reading all digits as one number moves the point behind the last. -/
theorem literalValue_eq (l : List Char) :
    literalValue l
      = (Nat.ofDigitChars 10 (wholePart l ++ fractionPart l) 0 : ℚ)
        / (Nat.pow 10 (fractionPart l).length : Nat) := by
  rw [literalValue, wholeValue_eq, fractionValue_eq, Nat.ofDigitChars_append,
    @Nat.ofDigitChars_eq_ofDigitChars_zero (fractionPart l)
      (Nat.ofDigitChars 10 (wholePart l) 0), Nat.pow_eq]
  push_cast
  field_simp

theorem literalValue_nonneg (l : List Char) : 0 ≤ literalValue l := by
  rw [literalValue_eq]
  exact div_nonneg (Nat.cast_nonneg _) (Nat.cast_nonneg _)

variable {l : List Char}

theorem wholePart_of_not_mem (h : '.' ∉ l) : wholePart l = l := by
  refine List.takeWhile_eq_self_iff.mpr fun c hc => ?_
  exact bne_iff_ne.mpr fun heq => h (heq ▸ hc)

theorem fractionPart_of_not_mem (h : '.' ∉ l) : fractionPart l = [] := by
  have happ := List.takeWhile_append_dropWhile (p := (· != '.')) (l := l)
  rw [← wholePart, wholePart_of_not_mem h] at happ
  rw [fractionPart, List.append_right_eq_self.mp happ]
  rfl

/-- Without a point a value is whole. -/
theorem literalValue_of_not_mem (h : '.' ∉ l) :
    literalValue l = (Nat.ofDigitChars 10 l 0 : Nat) := by
  rw [literalValue, wholePart_of_not_mem h, fractionPart_of_not_mem h,
    wholeValue_eq, fractionValue, add_zero]

end Numeric

open Numeric

namespace Number

-- =============================================================== payloads

/-- The value of a number, where infinity is above all others. -/
def value : Number → WithTop ℚ
  | .integer v => (v.toInt : ℚ)
  | .float x => x.value

/-- The number that a value has, if it is written with a point or if it is
not: a word where it is written without and fits, and else a double. -/
inductive Denotes (point : Prop) (q : ℚ) : Number → Prop
  | integer {v : Int64} : ¬ point → (v.toInt : ℚ) = q →
      Denotes point q (.integer v)
  | float {x : Binary64} : point ∨ 2 ^ 63 ≤ q → Binary64.Rounds q x →
      Denotes point q (.float x)

theorem ofLiteral_eq (l : List Char) :
    ofLiteral l =
      if '.' ∈ l then
        .float (.nearest
          (Nat.ofDigitChars 10 (wholePart l ++ fractionPart l) 0)
          (Nat.pow 10 (fractionPart l).length))
      else if Nat.ofDigitChars 10 l 0 < 2 ^ 63 then
        .integer (Int64.ofNat (Nat.ofDigitChars 10 l 0))
      else
        .float (.nearest (Nat.ofDigitChars 10 l 0) 1) := by
  unfold ofLiteral
  dsimp only
  rw [← wholePart, ← fractionPart]
  by_cases hpoint : '.' ∈ l
  · rw [if_pos hpoint, if_pos (List.contains_iff_mem.mpr hpoint)]
  · rw [if_neg hpoint, if_neg (mt List.contains_iff_mem.mp hpoint),
      wholePart_of_not_mem hpoint, fractionPart_of_not_mem hpoint,
      List.append_nil]
    rfl

/-- A literal has the number of its value. -/
theorem denotes_ofLiteral (l : List Char) :
    (ofLiteral l).Denotes ('.' ∈ l) (literalValue l) := by
  rw [ofLiteral_eq]
  by_cases hpoint : '.' ∈ l
  · rw [if_pos hpoint, literalValue_eq]
    exact .float (Or.inl hpoint)
      (Binary64.rounds_nearest _ (Nat.pow_pos (by decide)))
  rw [if_neg hpoint, literalValue_of_not_mem hpoint]
  by_cases hfits : Nat.ofDigitChars 10 l 0 < 2 ^ 63
  · rw [if_pos hfits]
    refine .integer hpoint ?_
    rw [Int64.toInt_ofNat_of_lt hfits, Int.cast_natCast]
  · rw [if_neg hfits]
    refine .float (Or.inr ?_) ?_
    · exact_mod_cast not_lt.mp hfits
    · have hrounds := Binary64.rounds_nearest (Nat.ofDigitChars 10 l 0)
        Nat.one_pos
      rwa [Nat.cast_one, div_one] at hrounds

theorem cast_toInt_lt (v : Int64) : (v.toInt : ℚ) < 2 ^ 63 := by
  exact_mod_cast v.toInt_lt

namespace Denotes

variable {point : Prop} {p q : ℚ} {a b : Number}

theorem unique (ha : a.Denotes point q) (hb : b.Denotes point q) : a = b := by
  cases ha with
  | @integer v hpoint hv =>
    cases hb with
    | integer _ hw =>
      rw [Int64.toInt_inj.mp (Int.cast_injective (hv.trans hw.symm))]
    | float hq _ =>
      exact absurd (hv ▸ hq.resolve_left hpoint) (not_le.mpr (cast_toInt_lt v))
  | float hq hx =>
    cases hb with
    | @integer v hpoint hv =>
      exact absurd (hv ▸ hq.resolve_left hpoint) (not_le.mpr (cast_toInt_lt v))
    | float _ hy => rw [hx.unique hy]

theorem exists_integer (h : a.Denotes point q) (hpoint : ¬ point)
    (hq : q ≤ 2 ^ 63 - 1) : ∃ v, a = .integer v ∧ (v.toInt : ℚ) = q := by
  cases h with
  | integer _ hv => exact ⟨_, rfl, hv⟩
  | float hwide _ =>
    have := hwide.resolve_left hpoint
    linarith

theorem exists_float (h : a.Denotes point q)
    (hq : point ∨ 2 ^ 63 - 1 < q) :
    ∃ x, a = .float x ∧ Binary64.Rounds q x := by
  cases h with
  | @integer v hpoint hv =>
    have hlt := hq.resolve_left hpoint
    have hle : (v.toInt : ℚ) ≤ 2 ^ 63 - 1 := by
      exact_mod_cast Int.le_sub_one_of_lt v.toInt_lt
    linarith
  | float _ hx => exact ⟨_, rfl, hx⟩

theorem value_nonneg (h : a.Denotes point q) (hq : 0 ≤ q) : 0 ≤ a.value := by
  cases h with
  | integer _ hv =>
    rw [value, hv]
    exact WithTop.coe_le_coe.mpr hq
  | @float x _ _ => exact x.value_nonneg

/-- Without a point, a larger value has no smaller number. -/
theorem value_le (ha : a.Denotes False p) (hb : b.Denotes False q)
    (h : p ≤ q) : a.value ≤ b.value := by
  cases ha with
  | @integer v _ hv =>
    cases hb with
    | integer _ hw =>
      rw [value, value, hv, hw]
      exact WithTop.coe_le_coe.mpr h
    | float hq hx =>
      -- a word is below 2⁶³, and what is rounded from there on is not
      obtain ⟨y, hy⟩ := Binary64.Finite.exists_value_eq_two_pow
        (k := 63) (by decide)
      have hwide : y.value ≤ q := hy ▸ hq.resolve_left id
      refine le_trans ?_ (y.rounds.value_le hx hwide)
      rw [value, Binary64.value, hy]
      exact WithTop.coe_le_coe.mpr (cast_toInt_lt v).le
  | float hp hx =>
    cases hb with
    | @integer v _ hv =>
      have hwide := le_trans (hp.resolve_left id) h
      exact absurd (hv ▸ hwide) (not_le.mpr (cast_toInt_lt v))
    | float _ hy => exact hx.value_le hy h

end Denotes

end Number

-- ============================================================== the literal

theorem scan_literal {d : String} (h : IsNumber d.toList) :
    scan d = .ok [.constant (.ofLiteral d.toList)] :=
  scan_eq_ok_iff_lexemes.mpr ⟨_, lexemes_of_spells (.constant h), rfl⟩

/-- A literal is one constant. Without a point it is the integer of its
value as long as that is less than 2⁶³, and in every other case the double
nearest to its value, and of two as near the even one. The number depends on
the value and the point only, is never negative, and without a point never
falls as the value grows. -/
theorem scan_number (d : String) (h : IsNumber d.toList) :
    ∃ n, scan d = .ok [.constant n] ∧
      ('.' ∉ d.toList → literalValue d.toList ≤ 2 ^ 63 - 1 →
        ∃ v, n = .integer v ∧ (v.toInt : ℚ) = literalValue d.toList) ∧
      ('.' ∈ d.toList ∨ 2 ^ 63 - 1 < literalValue d.toList →
        ∃ x, n = .float x ∧ Binary64.Rounds (literalValue d.toList) x) ∧
      0 ≤ n.value ∧
      (∀ e : String, IsNumber e.toList →
        literalValue e.toList = literalValue d.toList →
        ('.' ∈ e.toList ↔ '.' ∈ d.toList) → scan e = scan d) ∧
      ∀ (e : String) (m : Number), IsNumber e.toList →
        scan e = .ok [.constant m] → '.' ∉ d.toList → '.' ∉ e.toList →
        literalValue d.toList ≤ literalValue e.toList →
        n.value ≤ m.value := by
  have hdenotes := Number.denotes_ofLiteral d.toList
  refine ⟨_, scan_literal h, hdenotes.exists_integer, hdenotes.exists_float,
    hdenotes.value_nonneg (literalValue_nonneg _), fun e he heq hiff => ?_,
    fun e m he hm hpoint hpoint' hle => ?_⟩
  · have hdenotes' := Number.denotes_ofLiteral e.toList
    rw [heq, hiff] at hdenotes'
    rw [scan_literal he, scan_literal h, hdenotes'.unique hdenotes]
  · rw [scan_literal he] at hm
    cases hm
    have hdenotes' := Number.denotes_ofLiteral e.toList
    rw [eq_false hpoint] at hdenotes
    rw [eq_false hpoint'] at hdenotes'
    exact hdenotes.value_le hdenotes' hle

/-- Zeros in front do not make the widest integer a double, and the double
that follows it is no less. -/
theorem scan_number_widest :
    let d := "0009223372036854775807"
    let e := "9223372036854775808"
    IsNumber d.toList ∧ IsNumber e.toList ∧ ∃ n m,
      scan d = .ok [.constant n] ∧ scan e = .ok [.constant m] ∧
      (∃ v, n = .integer v ∧ (v.toInt : ℚ) = literalValue d.toList) ∧
      (∃ x, m = .float x ∧ Binary64.Rounds (literalValue e.toList) x) ∧
      n.value ≤ m.value := by
  intro d e
  have hd : IsNumber d.toList :=
    IsDigits.isNumber ⟨by decide, List.all_eq_true.mp (by decide)⟩
  have he : IsNumber e.toList :=
    IsDigits.isNumber ⟨by decide, List.all_eq_true.mp (by decide)⟩
  have hpoint : '.' ∉ d.toList := by decide
  have hpoint' : '.' ∉ e.toList := by decide
  have hvalue : literalValue d.toList = 2 ^ 63 - 1 := by
    rw [literalValue_of_not_mem hpoint,
      show Nat.ofDigitChars 10 d.toList 0 = 2 ^ 63 - 1 by decide +kernel]
    norm_num
  have hvalue' : literalValue e.toList = 2 ^ 63 := by
    rw [literalValue_of_not_mem hpoint',
      show Nat.ofDigitChars 10 e.toList 0 = 2 ^ 63 by decide +kernel]
    norm_num
  obtain ⟨n, hn, hinteger, -, -, -, hmono⟩ := scan_number d hd
  obtain ⟨m, hm, -, hfloat, -⟩ := scan_number e he
  exact ⟨hd, he, n, m, hn, hm, hinteger hpoint hvalue.le,
    hfloat (Or.inr (by rw [hvalue']; linarith)),
    hmono e m he hm hpoint hpoint' (by rw [hvalue, hvalue']; linarith)⟩

end MiniC
