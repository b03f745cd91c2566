import MiniC.Text.Class
import Mathlib.Data.List.TakeWhile

/-!
The longest beginning of a text in a given language.

A scanner that reads as much as it can is specified by what it reads: a
beginning of the text, in the language, and no other beginning in the
language is longer. There is at most one such beginning (`Longest.unique`),
so a function that finds it is pinned down by saying so. For a class of
characters it is what `List.takeWhile` takes (`longest_takeWhile`).
-/

namespace MiniC.Text

/-- `l` is the longest beginning of `s` in the language `P`. -/
structure Longest (P : List Char → Prop) (s l : List Char) : Prop where
  isPrefix : l <+: s
  holds : P l
  length_le : ∀ e, e <+: s → P e → e.length ≤ l.length

namespace Longest

variable {P : List Char → Prop} {s l m : List Char}

theorem unique (hl : Longest P s l) (hm : Longest P s m) : l = m := by
  have hlen : l.length = m.length :=
    Nat.le_antisymm (hm.length_le l hl.isPrefix hl.holds)
      (hl.length_le m hm.isPrefix hm.holds)
  have hpre : l <+: m :=
    List.prefix_of_prefix_length_le hl.isPrefix hm.isPrefix (Nat.le_of_eq hlen)
  exact hpre.eq_of_length hlen

theorem refl (h : P s) : Longest P s s :=
  ⟨List.prefix_refl s, h, fun _ he _ => he.length_le⟩

/-- The language does not go on with the character after the longest
beginning. -/
theorem not_holds_concat {c : Char} {t : List Char}
    (h : Longest P (l ++ c :: t) l) : ¬ P (l ++ [c]) := by
  intro hc
  have hpre : l ++ [c] <+: l ++ c :: t :=
    (List.prefix_append_right_inj l).mpr (List.prefix_append [c] t)
  have := h.length_le _ hpre hc
  rw [List.length_append, List.length_singleton] at this
  omega

end Longest

-- ========================================== the characters of a class

variable {p : Char → Bool} {s l : List Char}

/-- What is taken of a text that a stop stands behind is taken of the text
alone. -/
theorem takeWhile_append_of_stop {r : List Char}
    (hr : ∀ c ∈ r.head?, p c = false) :
    (l ++ r).takeWhile p = l.takeWhile p := by
  induction l with
  | nil =>
    cases r with
    | nil => rfl
    | cons c r => exact List.takeWhile_cons_of_neg (by simp [hr c rfl])
  | cons c l ih =>
    rw [List.cons_append, List.takeWhile_cons, List.takeWhile_cons, ih]

theorem dropWhile_append_of_stop {r : List Char}
    (hr : ∀ c ∈ r.head?, p c = false) :
    (l ++ r).dropWhile p = l.dropWhile p ++ r := by
  have happ := List.takeWhile_append_dropWhile (p := p) (l := l ++ r)
  rw [takeWhile_append_of_stop hr] at happ
  refine List.append_cancel_left (happ.trans ?_)
  rw [← List.append_assoc, List.takeWhile_append_dropWhile]

/-- What is taken of a text whose beginning is in the class is that
beginning, and what is taken of the rest. -/
theorem takeWhile_eq_of_stop {r : List Char} (hl : ∀ c ∈ l, p c = true)
    (hr : ∀ c ∈ r.head?, p c = false) : (l ++ r).takeWhile p = l := by
  rw [takeWhile_append_of_stop hr]
  exact List.takeWhile_eq_self_iff.mpr hl

theorem longest_takeWhile (p : Char → Bool) (s : List Char) :
    Longest (fun l => ∀ c ∈ l, p c = true) s (s.takeWhile p) := by
  refine ⟨List.takeWhile_prefix p, fun c hc => List.mem_takeWhile_imp hc, ?_⟩
  rintro e ⟨t, rfl⟩ he
  rw [List.takeWhile_append_of_pos he, List.length_append]
  exact Nat.le_add_right _ _

end MiniC.Text
