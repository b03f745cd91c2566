import MiniC.Proofs.Text.Line

/-!
Where a byte offset falls.

An offset is past the end of a text, inside a character of it, or on a
boundary: between two characters or at one of the ends. What is left of the
text behind an offset is there exactly for boundaries
(`dropBytes?_eq_some_iff`), and of the three just one is the case
(`not_isBoundary_iff`). Boundaries of what is left are boundaries of the text,
moved by what is before (`isBoundary_append_iff`).
-/

namespace MiniC.Text

/-- The offset falls between two characters, or at one of the ends. -/
def IsBoundary (s : List Char) (n : Nat) : Prop :=
  ∃ pre v, s = pre ++ v ∧ n = size pre

/-- The offset falls inside a character. -/
def InsideCharacter (s : List Char) (n : Nat) : Prop :=
  ∃ pre c v k, s = pre ++ c :: v ∧ 0 < k ∧ k < c.utf8Size ∧ n = size pre + k

variable {s t v pre : List Char} {n k : Nat}

theorem isBoundary_zero (s : List Char) : IsBoundary s 0 :=
  ⟨[], s, rfl, rfl⟩

theorem IsBoundary.le_size (h : IsBoundary s n) : n ≤ size s := by
  obtain ⟨pre, v, rfl, rfl⟩ := h
  rw [size_append]
  omega

theorem isBoundary_of_isPrefix (h : pre <+: s) : IsBoundary s (size pre) := by
  obtain ⟨v, rfl⟩ := h
  exact ⟨pre, v, rfl, rfl⟩

-- ================================================================== cuts

theorem dropBytes?_eq_some_iff :
    dropBytes? n s = some v ↔ ∃ pre, s = pre ++ v ∧ n = size pre := by
  constructor
  · intro h
    induction s generalizing n with
    | nil =>
      cases n with
      | zero => cases h; exact ⟨[], rfl, rfl⟩
      | succ n => cases h
    | cons c s ih =>
      cases n with
      | zero => cases h; exact ⟨[], rfl, rfl⟩
      | succ n =>
        rw [dropBytes?] at h
        split at h
        · next hle =>
          obtain ⟨pre, rfl, hsize⟩ := ih h
          refine ⟨c :: pre, rfl, ?_⟩
          rw [size_cons]
          omega
        · cases h
  · rintro ⟨pre, rfl, rfl⟩
    exact dropBytes?_append pre v

theorem dropBytes?_eq_none_iff : dropBytes? n s = none ↔ ¬ IsBoundary s n := by
  rw [Option.eq_none_iff_forall_ne_some, IsBoundary, not_exists]
  constructor
  · rintro h pre ⟨v, hs, hn⟩
    exact h v (dropBytes?_eq_some_iff.mpr ⟨pre, hs, hn⟩)
  · intro h v hv
    obtain ⟨pre, hs, hn⟩ := dropBytes?_eq_some_iff.mp hv
    exact h pre ⟨v, hs, hn⟩

-- ============================================================ the places

/-- Inside a character is no boundary: the texts before the two would differ
by a part of the character. -/
theorem InsideCharacter.not_isBoundary (h : InsideCharacter s n) :
    ¬ IsBoundary s n := by
  rintro ⟨pre, v, hs, hn⟩
  obtain ⟨pre', c, v', k, hs', hpos, hlt, hn'⟩ := h
  have hsplit := hs.symm.trans hs'
  rcases List.append_eq_append_iff.mp hsplit with
    ⟨t, hpre', -⟩ | ⟨t, hpre, htail⟩
  · rw [hpre', size_append] at hn'
    omega
  · cases t with
    | nil =>
      rw [hpre, List.append_nil] at hn
      omega
    | cons d t =>
      rw [List.cons_append] at htail
      rw [hpre, size_append, size_cons, ← (List.cons.inj htail).1] at hn
      omega

theorem not_isBoundary_iff :
    ¬ IsBoundary s n ↔ size s < n ∨ InsideCharacter s n := by
  constructor
  · intro h
    rcases Nat.lt_trichotomy n (size s) with hlt | rfl | hgt
    · obtain ⟨pre, c, v, k, hs, hn, hk⟩ := exists_char_of_lt_size hlt
      refine Or.inr ⟨pre, c, v, k, hs, ?_, hk, hn⟩
      rw [Nat.pos_iff_ne_zero]
      rintro rfl
      exact h ⟨pre, c :: v, hs, hn⟩
    · exact absurd (isBoundary_of_isPrefix (List.prefix_refl s)) h
    · exact Or.inl hgt
  · rintro (hgt | hinside)
    · exact fun h => absurd h.le_size (Nat.not_le_of_lt hgt)
    · exact hinside.not_isBoundary

theorem isBoundary_append_iff :
    IsBoundary (pre ++ v) (size pre + k) ↔ IsBoundary v k := by
  constructor
  · rintro ⟨pre', v', hs, hn⟩
    rcases List.append_eq_append_iff.mp hs with ⟨t, hpre', hv⟩ | ⟨t, hpre, hv⟩
    · refine ⟨t, v', hv, ?_⟩
      rw [hpre', size_append] at hn
      omega
    · -- the offset is not before `pre` ends
      rw [hpre, size_append] at hn
      obtain rfl : k = 0 := by omega
      exact isBoundary_zero v
  · rintro ⟨t, u, rfl, rfl⟩
    exact ⟨pre ++ t, u, (List.append_assoc _ _ _).symm, (size_append _ _).symm⟩

end MiniC.Text
