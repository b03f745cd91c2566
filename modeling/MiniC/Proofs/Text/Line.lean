import MiniC.Text.Line
import MiniC.Text.Visible
import Mathlib.Data.List.DropRight

/-!
Where a place in a text is, by lines.

The line of a place is told by the text before it: its number counts the
line feeds there, and the offset into the line counts what stands after the
last of them (`lastLine`). The text of the line goes on from there up to the
next line feed. The walk from line to line finds just this line
(`lineAt?_append`), at every byte of the character behind the place.

At the end of a line space is trimmed, a line feed with it
(`trimEnd_append_of_space`). Trimming stops at the last character that is no
space, so it is blind to all that stands before (`trimEnd_append_of_ink`).
-/

namespace MiniC.Text

/-- What a text has after its last line feed. -/
def lastLine (s : List Char) : List Char :=
  s.rtakeWhile (· != '\n')

variable {s t u v : List Char}

theorem forall_ne_feed (h : '\n' ∉ s) : ∀ c ∈ s, (c != '\n') = true := by
  intro c hc
  simp only [bne_iff_ne]
  intro hfeed
  exact h (hfeed ▸ hc)

-- ============================================================ last lines

theorem lastLine_of_not_mem (h : '\n' ∉ s) : lastLine s = s := by
  unfold lastLine
  rw [List.rtakeWhile_eq_self_iff]
  exact forall_ne_feed h

theorem feed_not_mem_lastLine (s : List Char) : '\n' ∉ lastLine s := by
  intro h
  unfold lastLine List.rtakeWhile at h
  rw [List.mem_reverse] at h
  have hfeed := List.mem_takeWhile_imp h
  simp at hfeed

/-- What stands before a line feed is not on the last line. -/
theorem lastLine_append_feed (s t : List Char) :
    lastLine (s ++ '\n' :: t) = lastLine t := by
  unfold lastLine
  induction t using List.reverseRecOn with
  | nil =>
    rw [List.rtakeWhile_concat_neg _ _ _ (by simp)]
    rfl
  | append_singleton t c ih =>
    rw [← List.cons_append, ← List.append_assoc, List.rtakeWhile_concat,
      List.rtakeWhile_concat, ih]

theorem lastLine_isSuffix (s : List Char) : lastLine s <:+ s :=
  List.rtakeWhile_suffix _ s

-- =========================================================== first lines

theorem splitLine_cons_feed (s : List Char) :
    splitLine ('\n' :: s) = (['\n'], s) := rfl

/-- Text without a line feed belongs to the line behind it. -/
theorem splitLine_append_of_not_mem (h : '\n' ∉ s) (t : List Char) :
    splitLine (s ++ t) = (s ++ (splitLine t).1, (splitLine t).2) := by
  have hall := forall_ne_feed h
  unfold splitLine
  rw [List.takeWhile_append_of_pos hall, List.dropWhile_append_of_pos hall]
  cases t.dropWhile (· != '\n') with
  | nil => rfl
  | cons c r => simp

/-- A line up to its line feed, which it has unless the text ends. -/
theorem splitLine_fst (s : List Char) :
    (splitLine s).1 = s.takeWhile (· != '\n') ∨
      (splitLine s).1 = s.takeWhile (· != '\n') ++ ['\n'] := by
  have hstop := List.head?_dropWhile_not (· != '\n') s
  unfold splitLine
  cases h : s.dropWhile (· != '\n') with
  | nil => exact Or.inl rfl
  | cons c r =>
    rw [h] at hstop
    have hc : c = '\n' := by simpa using hstop
    rw [hc]
    exact Or.inr rfl

theorem splitLine_cons_of_ne {c : Char} (hc : c ≠ '\n') (s : List Char) :
    (splitLine (c :: s)).1 = c :: (splitLine s).1 := by
  have h : '\n' ∉ [c] := by simpa using hc.symm
  exact congrArg Prod.fst (splitLine_append_of_not_mem h s)

-- ============================================================== the walk

/-- The line of a place, whose number counts the line feeds before it, from
the text before the place and the character behind it. -/
theorem lineFrom?_append {c : Char} {k : Nat} (hk : k < c.utf8Size)
    (n : Nat) (pre v : List Char) :
    lineFrom? n (size pre + k) (pre ++ c :: v)
      = some ⟨n + pre.count '\n', lastLine pre ++ (splitLine (c :: v)).1,
          size (lastLine pre) + k⟩ := by
  by_cases h : '\n' ∈ pre
  · -- one line is passed, and the place is behind it
    obtain ⟨l, t, rfl, hl⟩ := List.eq_append_cons_of_mem h
    have hline : splitLine (l ++ '\n' :: t ++ c :: v)
        = (l ++ ['\n'], t ++ c :: v) := by
      rw [List.append_assoc, splitLine_append_of_not_mem hl]
      rfl
    have hpast : size (l ++ '\n' :: t) + k
        = size (l ++ ['\n']) + (size t + k) := by
      simp only [size_append, size_cons, size_nil]
      omega
    rw [lineFrom?, dif_neg (by simp), hline]
    simp only
    rw [hpast, if_neg (by omega), Nat.add_sub_cancel_left,
      lineFrom?_append hk (n + 1) t v, lastLine_append_feed, List.count_append,
      List.count_cons_self, List.count_eq_zero.mpr hl]
    congr 2
    omega
  · have hline := splitLine_append_of_not_mem h (c :: v)
    have hsize : c.utf8Size ≤ size (splitLine (c :: v)).1 := by
      by_cases hc : c = '\n'
      · rw [hc, splitLine_cons_feed]
        simp
      · rw [splitLine_cons_of_ne hc, size_cons]
        omega
    rw [lineFrom?, dif_neg (by simp), hline]
    simp only
    rw [if_pos (by rw [size_append]; omega), lastLine_of_not_mem h,
      List.count_eq_zero.mpr h]
    rfl
termination_by pre.length
decreasing_by
  subst_vars
  simp only [List.length_append, List.length_cons]
  omega

/-- Every byte of a text belongs to one of its characters. -/
theorem exists_char_of_lt_size {k : Nat} (h : k < size s) :
    ∃ pre c v j, s = pre ++ c :: v ∧ k = size pre + j ∧ j < c.utf8Size := by
  induction s generalizing k with
  | nil => exact absurd h (Nat.not_lt_zero k)
  | cons c s ih =>
    by_cases hk : k < c.utf8Size
    · exact ⟨[], c, s, k, rfl, (Nat.zero_add k).symm, hk⟩
    · rw [size_cons] at h
      obtain ⟨pre, b, v, j, rfl, hj, hlt⟩ := ih (k := k - c.utf8Size) (by omega)
      refine ⟨c :: pre, b, v, j, rfl, ?_, hlt⟩
      rw [size_cons]
      omega

theorem lineAt?_append {c : Char} {k : Nat} (hk : k < c.utf8Size)
    (pre v : List Char) :
    lineAt? (pre ++ c :: v) (size pre + k)
      = some ⟨1 + pre.count '\n', lastLine pre ++ (splitLine (c :: v)).1,
          size (lastLine pre) + k⟩ :=
  lineFrom?_append hk 1 pre v

-- ============================================================== trimming

theorem trimEnd_isPrefix (s : List Char) : trimEnd s <+: s :=
  ⟨_, trimEnd_append s⟩

theorem trimEnd_eq_nil_iff : trimEnd s = [] ↔ ∀ c ∈ s, isSpace c = true :=
  List.rdropWhile_eq_nil_iff

theorem trimEnd_append_of_space (s : List Char)
    (h : ∀ c ∈ t, isSpace c = true) : trimEnd (s ++ t) = trimEnd s := by
  have hall : ∀ c ∈ t.reverse, isSpace c = true :=
    fun c hc => h c (List.mem_reverse.mp hc)
  unfold trimEnd
  rw [List.reverse_append, List.dropWhile_append_of_pos hall]

theorem trimEnd_append_of_ink (s : List Char)
    (h : ∃ c ∈ t, isSpace c = false) : trimEnd (s ++ t) = s ++ trimEnd t := by
  have hne : (t.reverse.dropWhile isSpace).isEmpty = false := by
    rw [List.isEmpty_eq_false_iff, ne_eq, List.dropWhile_eq_nil_iff]
    intro hall
    obtain ⟨c, hc, hink⟩ := h
    rw [hall c (List.mem_reverse.mpr hc)] at hink
    cases hink
  unfold trimEnd
  rw [List.reverse_append, List.dropWhile_append, hne, if_neg (by simp),
    List.reverse_append, List.reverse_reverse]

/-- What is kept of a text from some character on starts with it, unless
there is nothing but space from there on. -/
theorem getElem?_trimEnd (s : List Char) (c : Char) (t : List Char) :
    (trimEnd (s ++ c :: t))[s.length]?
      = if (c :: t).all isSpace then none else some c := by
  by_cases h : (c :: t).all isSpace = true
  · rw [if_pos h, trimEnd_append_of_space s (List.all_eq_true.mp h),
      List.getElem?_eq_none]
    exact (trimEnd_isPrefix s).length_le
  · have hink : ∃ d ∈ c :: t, isSpace d = false := by
      rw [List.all_eq_true] at h
      simpa only [not_forall, Bool.not_eq_true, exists_prop] using h
    have hprefix := trimEnd_isPrefix (c :: t)
    rw [if_neg h, trimEnd_append_of_ink s hink,
      List.getElem?_append_right (Nat.le_refl _), Nat.sub_self]
    cases hkept : trimEnd (c :: t) with
    | nil =>
      obtain ⟨d, hd, hspace⟩ := hink
      rw [trimEnd_eq_nil_iff.mp hkept d hd] at hspace
      cases hspace
    | cons d r =>
      rw [hkept] at hprefix
      rw [(List.cons_prefix_cons.mp hprefix).1]
      rfl

end MiniC.Text
