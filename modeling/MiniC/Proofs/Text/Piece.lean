import MiniC.Proofs.Text.Longest
import Mathlib.Data.List.SplitBy

/-!
A text cut into pieces, without a cursor.

# Seams

Two texts glue (`glues`) where they meet at run characters on both sides.
Only there can a word or a number of the one go on into the other, so a
text may be cut anywhere else and scanned in parts.

# Pieces

`cut` divides a text at every place where its two sides do not glue. Its
pieces are the maximal runs and, one by one, the other characters
(`mem_cut_cases`, `mem_cut_of_isMaximalRun`). Every text is built from its
pieces, first to last, without gluing: `piece_induction` is the induction
that all statements on whole sources go by.
-/

namespace MiniC.Text

-- ================================================================ seams

/-- Whether the last character of the one text and the first of the other
are both run characters. -/
def glues (s t : List Char) : Bool :=
  s.getLast?.any isRunChar && t.head?.any isRunChar

variable {s t u v w : List Char}

@[simp] theorem glues_nil_left (t : List Char) : glues [] t = false := rfl

@[simp] theorem glues_nil_right (s : List Char) : glues s [] = false := by
  rw [glues, List.head?_nil, Option.any_none, Bool.and_false]

theorem glues_append_left (u : List Char) (hv : v ≠ []) :
    glues (u ++ v) t = glues v t := by
  obtain ⟨c, hc⟩ := List.getLast?_isSome.mpr hv |> Option.isSome_iff_exists.mp
  rw [glues, glues, List.getLast?_append, hc, Option.some_or]

theorem glues_append_right (t : List Char) (hv : v ≠ []) :
    glues s (v ++ t) = glues s v := by
  cases v with
  | nil => exact absurd rfl hv
  | cons c v => rfl

theorem glues_of_head (h : ∀ c ∈ t.head?, isRunChar c = false) :
    glues s t = false := by
  cases t with
  | nil => exact glues_nil_right s
  | cons c t =>
    rw [glues, List.head?_cons, Option.any_some, h c rfl, Bool.and_false]

theorem glues_of_getLast (h : ∀ c ∈ s.getLast?, isRunChar c = false) :
    glues s t = false := by
  cases hs : s.getLast? with
  | none => rw [glues, hs]; rfl
  | some c => rw [glues, hs, Option.any_some, h c hs, Bool.false_and]

theorem glues_blanks_left (h : ∀ c ∈ s, isBlank c = true) :
    glues s t = false :=
  glues_of_getLast fun c hc =>
    isRunChar_of_isBlank (h c (List.mem_of_getLast? hc))

theorem glues_blanks_right (h : ∀ c ∈ t, isBlank c = true) :
    glues s t = false :=
  glues_of_head fun c hc => isRunChar_of_isBlank (h c (List.mem_of_head? hc))

theorem glues_of_runs (hs : s ≠ []) (ht : t ≠ [])
    (hsrun : ∀ c ∈ s, isRunChar c = true)
    (htrun : ∀ c ∈ t, isRunChar c = true) : glues s t = true := by
  obtain ⟨c, t, rfl⟩ := List.exists_cons_of_ne_nil ht
  rw [glues, List.getLast?_eq_some_getLast hs, Option.any_some,
    hsrun _ (List.getLast_mem hs), List.head?_cons, Option.any_some,
    htrun c List.mem_cons_self]
  rfl

/-- After a text of run characters that does not glue, no run goes on. -/
theorem head_of_glues (h : glues s t = false) (hs : s ≠ [])
    (hrun : ∀ c ∈ s, isRunChar c = true) :
    ∀ c ∈ t.head?, isRunChar c = false := by
  intro c hc
  have hlast := hrun _ (List.getLast_mem hs)
  rw [glues, List.getLast?_eq_some_getLast hs, Option.any_some, hlast,
    Bool.true_and, hc, Option.any_some] at h
  exact h

theorem glues_of_append (h : glues (u ++ v) t = false) : glues v t = false := by
  cases v with
  | nil => exact glues_nil_left t
  | cons c v => rwa [glues_append_left u (List.cons_ne_nil c v)] at h

/-- A run at the start of two texts that do not glue lies in the first. -/
theorem isPrefix_of_glues (h : glues s t = false) (hs : s ≠ [])
    (hrun : ∀ c ∈ w, isRunChar c = true) (hw : w <+: s ++ t) : w <+: s := by
  rcases List.prefix_or_prefix_of_prefix hw (List.prefix_append s t) with
    hws | ⟨v, rfl⟩
  · exact hws
  · have hv : v <+: t := (List.prefix_append_right_inj s).mp hw
    have hsrun : ∀ c ∈ s, isRunChar c = true :=
      fun c hc => hrun c (List.mem_append_left v hc)
    cases v with
    | nil => exact ⟨[], by simp⟩
    | cons c v =>
      obtain ⟨r, rfl⟩ := hv
      have hstop := head_of_glues h hs hsrun c rfl
      rw [hrun c (List.mem_append_right s List.mem_cons_self)] at hstop
      cases hstop

-- =============================================================== pieces

/-- A whole run, or one character that belongs to no run. -/
inductive IsPiece : List Char → Prop
  | char {c : Char} : isRunChar c = false → IsPiece [c]
  | run {w : List Char} : w ≠ [] → (∀ c ∈ w, isRunChar c = true) → IsPiece w

theorem IsPiece.ne_nil (h : IsPiece w) : w ≠ [] := by
  cases h with
  | char _ => exact List.cons_ne_nil _ _
  | run hw _ => exact hw

theorem IsPiece.eq_nil_or_glues (h : IsPiece (u ++ v)) (hu : u ≠ []) :
    v = [] ∨ glues u v = true := by
  generalize hw : u ++ v = w at h
  cases h with
  | char hc =>
    obtain ⟨d, u, rfl⟩ := List.exists_cons_of_ne_nil hu
    exact Or.inl (List.append_eq_nil_iff.mp (List.cons.inj hw).2).2
  | run _ hrun =>
    by_cases hv : v = []
    · exact Or.inl hv
    · rw [← hw] at hrun
      exact Or.inr (glues_of_runs hu hv
        (fun c hc => hrun c (List.mem_append_left v hc))
        fun c hc => hrun c (List.mem_append_right u hc))

/-- A text cut where its two sides do not glue. -/
def cut (s : List Char) : List (List Char) :=
  s.splitBy fun a b => isRunChar a && isRunChar b

@[simp] theorem flatten_cut (s : List Char) : (cut s).flatten = s :=
  List.flatten_splitBy _ s

theorem cut_append (h : glues s t = false) : cut (s ++ t) = cut s ++ cut t := by
  refine List.splitBy_append fun x hx y hy => ?_
  rwa [glues, hx, hy, Option.any_some, Option.any_some] at h

theorem cut_piece (h : IsPiece w) : cut w = [w] := by
  cases h with
  | char _ => rfl
  | run hw hrun =>
    refine List.splitBy_of_isChain hw (List.Pairwise.isChain ?_)
    refine List.pairwise_of_forall_mem_list fun a ha b hb => ?_
    rw [hrun a ha, hrun b hb]
    rfl

/-- The empty text aside, every text is a piece and a rest that does not
glue to it. -/
theorem exists_piece (hs : s ≠ []) :
    ∃ w r, s = w ++ r ∧ IsPiece w ∧ glues w r = false := by
  obtain ⟨c, s, rfl⟩ := List.exists_cons_of_ne_nil hs
  cases hc : isRunChar c with
  | false =>
    refine ⟨[c], s, rfl, .char hc, glues_of_getLast ?_⟩
    rintro d ⟨⟩
    exact hc
  | true =>
    refine ⟨(c :: s).takeWhile isRunChar, (c :: s).dropWhile isRunChar,
      List.takeWhile_append_dropWhile.symm,
      .run ?_ fun d hd => List.mem_takeWhile_imp hd, glues_of_head ?_⟩
    · rw [List.takeWhile_cons_of_pos hc]
      exact List.cons_ne_nil _ _
    · intro d hd
      have hnot := List.head?_dropWhile_not isRunChar (c :: s)
      rwa [hd] at hnot

/-- Induction over the pieces of a text, first to last. -/
@[elab_as_elim]
theorem piece_induction {motive : List Char → Prop} (nil : motive [])
    (piece : ∀ w r, IsPiece w → glues w r = false → motive r → motive (w ++ r))
    (s : List Char) : motive s := by
  by_cases hs : s = []
  · rw [hs]
    exact nil
  · obtain ⟨w, r, rfl, hw, hg⟩ := exists_piece hs
    exact piece w r hw hg (piece_induction nil piece r)
termination_by s.length
decreasing_by
  subst_vars
  have := List.length_pos_iff.mpr hw.ne_nil
  rw [List.length_append]
  omega

-- ========================================================= maximal runs

/-- `w` stands in `s` as a run with no run character on either side. -/
def IsMaximalRun (s w : List Char) : Prop :=
  w ≠ [] ∧ (∀ c ∈ w, isRunChar c = true) ∧
    ∃ u v, s = u ++ w ++ v ∧ (∀ c ∈ u.getLast?, isRunChar c = false) ∧
      ∀ c ∈ v.head?, isRunChar c = false

/-- A maximal run is cut out whole. -/
theorem mem_cut_of_isMaximalRun (h : IsMaximalRun s w) : w ∈ cut s := by
  obtain ⟨hw, hrun, u, v, rfl, hu, hv⟩ := h
  rw [cut_append (glues_of_head hv), cut_append (glues_of_getLast hu),
    cut_piece (.run hw hrun)]
  simp

/-- A run that is maximal in a text is so behind what does not glue. -/
theorem IsMaximalRun.append_left (h : IsMaximalRun t w)
    (hg : glues s t = false) : IsMaximalRun (s ++ t) w := by
  obtain ⟨hw, hrun, u, v, rfl, hu, hv⟩ := h
  refine ⟨hw, hrun, s ++ u, v, by simp only [List.append_assoc], ?_, hv⟩
  intro c hc
  by_cases hnil : u = []
  · -- the run stands first, so that `s` must not end in one
    subst hnil
    rw [List.append_nil] at hc
    rw [List.nil_append, glues_append_right v hw] at hg
    obtain ⟨d, w, rfl⟩ := List.exists_cons_of_ne_nil hw
    rw [glues, hc, Option.any_some, List.head?_cons, Option.any_some,
      hrun d List.mem_cons_self, Bool.and_true] at hg
    exact hg
  · rw [List.getLast?_append_of_ne_nil _ hnil] at hc
    exact hu c hc

/-- Every piece is a maximal run or a single character of no run. -/
theorem mem_cut_cases (h : w ∈ cut s) :
    IsMaximalRun s w ∨ ∃ c ∈ s, w = [c] ∧ isRunChar c = false := by
  induction s using piece_induction with
  | nil => cases h
  | piece p r hp hg ih =>
    rw [cut_append hg, cut_piece hp] at h
    rcases List.mem_cons.mp h with rfl | hr
    · cases hp with
      | char hc => exact Or.inr ⟨_, List.mem_cons_self, rfl, hc⟩
      | run hw hrun =>
        refine Or.inl ⟨hw, hrun, [], r, rfl, ?_, head_of_glues hg hw hrun⟩
        rintro c ⟨⟩
    · rcases ih hr with hmax | ⟨c, hc, rfl, hnot⟩
      · exact Or.inl (hmax.append_left hg)
      · exact Or.inr ⟨c, List.mem_append_right p hc, rfl, hnot⟩

end MiniC.Text
