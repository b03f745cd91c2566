import MiniC.Lexical.Pattern
import MiniC.Proofs.Text.Piece

/-!
The languages of the shapes.

# Finders

Each shape is a language (`Pattern.Matches`), said here without a text to
search in. A finder gives the longest beginning of a text in its language,
and nothing where there is none (`Finds`). Every anchored shape is found so
(`finds_find`), which is all that the rest of the theory knows of the
search.

# Locality

What a shape other than blanks finds does not change when a text is put
after that does not glue (`find_append_of_glues`): a match is made of run
characters, and then the seam ends it, or it is one character.
-/

namespace MiniC

open Text

-- ============================================================ languages

/-- A first character of a class, and name characters after it. -/
def IsName (first : Char → Bool) (l : List Char) : Prop :=
  ∃ c s, l = c :: s ∧ first c = true ∧ ∀ d ∈ s, isNameChar d = true

/-- A letter, and letters, digits and underscores after it. -/
def IsWord (l : List Char) : Prop :=
  IsName Char.isAlpha l

/-- One or more digits. -/
def IsDigits (l : List Char) : Prop :=
  l ≠ [] ∧ ∀ c ∈ l, c.isDigit = true

/-- A point with digits after it. -/
def IsFraction (l : List Char) : Prop :=
  ∃ ds, l = '.' :: ds ∧ IsDigits ds

/-- Digits, and possibly a fraction. -/
def IsNumber (l : List Char) : Prop :=
  ∃ a b, l = a ++ b ∧ IsDigits a ∧ (b = [] ∨ IsFraction b)

/-- The language of a shape. -/
def Pattern.Matches : Pattern → List Char → Prop
  | .char c, l => l = [c]
  | .blanks, l => l ≠ [] ∧ ∀ c ∈ l, isBlank c = true
  | .word, l => IsWord l
  | .underscored, l => IsName (· == '_') l
  | .number, l => IsNumber l
  | .leadingPoint, l => IsFraction l
  | .run, l => l ≠ [] ∧ ∀ c ∈ l, isRunChar c = true
  | .digitsAnywhere, l => IsDigits l

variable {s t l : List Char}

theorem isRunChar_of_isDigit {c : Char} (h : c.isDigit = true) :
    isRunChar c = true :=
  isRunChar_of_isNameChar (isNameChar_of_isDigit h)

theorem IsName.forall_isNameChar {first : Char → Bool}
    (hfirst : ∀ c, first c = true → isNameChar c = true) (h : IsName first l) :
    ∀ c ∈ l, isNameChar c = true := by
  obtain ⟨c, s, rfl, hc, hs⟩ := h
  exact List.forall_mem_cons.mpr ⟨hfirst c hc, hs⟩

theorem IsWord.forall_isNameChar (h : IsWord l) :
    ∀ c ∈ l, isNameChar c = true :=
  IsName.forall_isNameChar (fun _ => isNameChar_of_isAlpha) h

theorem IsWord.forall_isRunChar (h : IsWord l) :
    ∀ c ∈ l, isRunChar c = true :=
  fun c hc => isRunChar_of_isNameChar (h.forall_isNameChar c hc)

theorem IsDigits.forall_isRunChar (h : IsDigits l) :
    ∀ c ∈ l, isRunChar c = true :=
  fun c hc => isRunChar_of_isDigit (h.2 c hc)

theorem IsFraction.forall_isRunChar (h : IsFraction l) :
    ∀ c ∈ l, isRunChar c = true := by
  obtain ⟨ds, rfl, hds⟩ := h
  exact List.forall_mem_cons.mpr ⟨rfl, hds.forall_isRunChar⟩

theorem IsNumber.forall_isRunChar (h : IsNumber l) :
    ∀ c ∈ l, isRunChar c = true := by
  obtain ⟨a, b, rfl, ha, rfl | hb⟩ := h
  · rw [List.append_nil]
    exact ha.forall_isRunChar
  · exact List.forall_mem_append.mpr ⟨ha.forall_isRunChar, hb.forall_isRunChar⟩

theorem IsDigits.isNumber (h : IsDigits l) : IsNumber l :=
  ⟨l, [], (List.append_nil l).symm, h, Or.inl rfl⟩

theorem IsNumber.isDigit_head {c : Char} (h : IsNumber (c :: s)) :
    c.isDigit = true := by
  obtain ⟨a, b, heq, ⟨hne, hdigit⟩, -⟩ := h
  obtain ⟨d, a, rfl⟩ := List.exists_cons_of_ne_nil hne
  rw [(List.cons.inj heq).1]
  exact hdigit d List.mem_cons_self

theorem Pattern.Matches.ne_nil {p : Pattern} (h : p.Matches l) : l ≠ [] := by
  cases p with
  | char c => exact h ▸ List.cons_ne_nil c []
  | blanks => exact h.1
  | word => obtain ⟨c, s, rfl, -⟩ := h; exact List.cons_ne_nil c s
  | underscored => obtain ⟨c, s, rfl, -⟩ := h; exact List.cons_ne_nil c s
  | number =>
    obtain ⟨a, b, rfl, ha, -⟩ := h
    exact List.append_ne_nil_of_left_ne_nil ha.1 b
  | leadingPoint => obtain ⟨ds, rfl, -⟩ := h; exact List.cons_ne_nil _ ds
  | run => exact h.1
  | digitsAnywhere => exact h.1

-- ============================================================== finders

/-- `find` gives the longest beginning of a text in the language `P`, and
nothing where no beginning is in it. -/
structure Finds (P : List Char → Prop) (find : List Char → List Char) :
    Prop where
  isPrefix : ∀ s, find s <+: s
  holds : ∀ s, find s ≠ [] → P (find s)
  length_le : ∀ s l, l <+: s → P l → l.length ≤ (find s).length

namespace Finds

variable {P : List Char → Prop} {find : List Char → List Char}

theorem longest (h : Finds P find) (hs : find s ≠ []) :
    Longest P s (find s) :=
  ⟨h.isPrefix s, h.holds s hs, h.length_le s⟩

theorem ne_nil (h : Finds P find) (hl : l <+: s) (hP : P l) (hnil : l ≠ []) :
    find s ≠ [] := by
  intro hs
  have hlen := h.length_le s l hl hP
  rw [hs] at hlen
  exact hnil (List.eq_nil_of_length_eq_zero (Nat.le_zero.mp hlen))

/-- Where every text of the language is a run or one character, a search is
blind to what lies behind a seam that does not glue. -/
theorem append_of_glues (h : Finds P find)
    (htight : ∀ l, P l → (∀ c ∈ l, isRunChar c = true) ∨ l.length ≤ 1)
    (hg : glues s t = false) (hs : s ≠ []) : find (s ++ t) = find s := by
  have hpre : find (s ++ t) <+: s := by
    by_cases hnil : find (s ++ t) = []
    · rw [hnil]
      exact List.nil_prefix
    · rcases htight _ (h.holds _ hnil) with hrun | hone
      · exact isPrefix_of_glues hg hs hrun (h.isPrefix _)
      · have hpos := List.length_pos_iff.mpr hs
        exact List.prefix_of_prefix_length_le (h.isPrefix _)
          (List.prefix_append s t) (by omega)
  have hle : (find (s ++ t)).length ≤ (find s).length := by
    by_cases hnil : find (s ++ t) = []
    · rw [hnil]
      exact Nat.zero_le _
    · exact h.length_le s _ hpre (h.holds _ hnil)
  have hge : (find s).length ≤ (find (s ++ t)).length := by
    by_cases hnil : find s = []
    · rw [hnil]
      exact Nat.zero_le _
    · exact h.length_le _ _ ((h.isPrefix s).trans (List.prefix_append s t))
        (h.holds _ hnil)
  exact (List.prefix_of_prefix_length_le hpre (h.isPrefix s) hle).eq_of_length
    (Nat.le_antisymm hle hge)

end Finds

namespace Pattern

theorem finds_takeWhile (p : Char → Bool) :
    Finds (fun l => l ≠ [] ∧ ∀ c ∈ l, p c = true) (List.takeWhile p) where
  isPrefix _ := List.takeWhile_prefix p
  holds s hs := ⟨hs, (longest_takeWhile p s).holds⟩
  length_le s l hl hP := (longest_takeWhile p s).length_le l hl hP.2

theorem finds_findChar (c : Char) : Finds (· = [c]) (findChar c) where
  isPrefix := findChar_isPrefix c
  holds s hs := by
    cases s with
    | nil => exact absurd rfl hs
    | cons d s =>
      rw [findChar] at hs ⊢
      split
      · rfl
      · next hd => exact absurd (if_neg hd) hs
  length_le s l hl hP := by
    obtain ⟨r, rfl⟩ := hl
    rw [hP, List.singleton_append, findChar, if_pos rfl]

theorem finds_findName (first : Char → Bool) :
    Finds (IsName first) (findName first) where
  isPrefix := findName_isPrefix first
  holds s hs := by
    cases s with
    | nil => exact absurd rfl hs
    | cons c s =>
      rw [findName] at hs ⊢
      split
      · next hc => exact ⟨c, _, rfl, hc, (longest_takeWhile _ s).holds⟩
      · next hc => exact absurd (if_neg hc) hs
  length_le s l hl hP := by
    obtain ⟨r, rfl⟩ := hl
    obtain ⟨c, l, rfl, hc, hl⟩ := hP
    rw [List.cons_append, findName, if_pos hc, List.length_cons,
      List.length_cons]
    exact Nat.succ_le_succ ((longest_takeWhile isNameChar (l ++ r)).length_le l
      (List.prefix_append l r) hl)

theorem finds_findFraction : Finds IsFraction findFraction where
  isPrefix := findFraction_isPrefix
  holds s hs := by
    cases s with
    | nil => exact absurd rfl hs
    | cons c s =>
      rw [findFraction] at hs ⊢
      split
      · next hc => exact ⟨_, rfl, hc.2, (longest_takeWhile _ s).holds⟩
      · next hc => exact absurd (if_neg hc) hs
  length_le s l hl hP := by
    obtain ⟨r, rfl⟩ := hl
    obtain ⟨ds, rfl, hds⟩ := hP
    have hlen := (finds_takeWhile Char.isDigit).length_le (ds ++ r) ds
      (List.prefix_append ds r) hds
    have hne := (finds_takeWhile Char.isDigit).ne_nil (List.prefix_append ds r)
      hds hds.1
    rw [List.cons_append, findFraction, if_pos ⟨rfl, hne⟩]
    exact Nat.succ_le_succ hlen

theorem findNumber_append {a r : List Char} (ha : IsDigits a)
    (hr : ∀ c ∈ r.head?, c.isDigit = false) :
    findNumber (a ++ r) = a ++ findFraction r := by
  have htake : (a ++ r).takeWhile Char.isDigit = a :=
    takeWhile_eq_of_stop ha.2 hr
  have hdrop : (a ++ r).dropWhile Char.isDigit = r := by
    have happ :=
      List.takeWhile_append_dropWhile (p := Char.isDigit) (l := a ++ r)
    rw [htake] at happ
    exact List.append_cancel_left happ
  rw [findNumber, htake, hdrop]
  exact if_neg ha.1

theorem finds_findNumber : Finds IsNumber findNumber where
  isPrefix := findNumber_isPrefix
  holds s hs := by
    rw [findNumber] at hs ⊢
    split
    · next hnil => exact absurd (if_pos hnil) hs
    · next hne =>
      refine ⟨_, _, rfl, ⟨hne, (longest_takeWhile _ s).holds⟩, ?_⟩
      by_cases hf : findFraction (s.dropWhile Char.isDigit) = []
      · exact Or.inl hf
      · exact Or.inr (finds_findFraction.holds _ hf)
  length_le s l hl hP := by
    obtain ⟨r, rfl⟩ := hl
    obtain ⟨a, b, rfl, ha, rfl | hb⟩ := hP
    · -- all of the digits are found, and perhaps a fraction
      rw [List.append_nil]
      have hlen := (finds_takeWhile Char.isDigit).length_le (a ++ r) a
        (List.prefix_append a r) ha
      have hne := (finds_takeWhile Char.isDigit).ne_nil (List.prefix_append a r)
        ha ha.1
      rw [findNumber, if_neg hne, List.length_append]
      omega
    · -- the point ends the digits, so that the fraction is found behind them
      have hlen := finds_findFraction.length_le (b ++ r) b
        (List.prefix_append b r) hb
      have hstop : ∀ c ∈ (b ++ r).head?, c.isDigit = false := by
        obtain ⟨ds, rfl, -⟩ := hb
        rintro c ⟨⟩
        rfl
      rw [List.append_assoc, findNumber_append ha hstop, List.length_append,
        List.length_append]
      omega

/-- Every anchored shape is found as the longest beginning in its language. -/
theorem finds_find {p : Pattern} (ha : p.anchored = true) :
    Finds p.Matches p.find := by
  cases p with
  | char c => exact finds_findChar c
  | blanks => exact finds_takeWhile isBlank
  | word => exact finds_findName _
  | underscored => exact finds_findName _
  | number => exact finds_findNumber
  | leadingPoint => exact finds_findFraction
  | run => exact finds_takeWhile isRunChar
  | digitsAnywhere => cases ha

variable {p : Pattern}

theorem fits_iff : p.fits s = true ↔ p.find s ≠ [] := by
  rw [fits, Bool.not_eq_true', List.isEmpty_eq_false_iff]

theorem longest_find (ha : p.anchored = true) (h : p.fits s = true) :
    Longest p.Matches s (p.find s) :=
  (finds_find ha).longest (fits_iff.mp h)

theorem fits_of_isPrefix (ha : p.anchored = true) (hl : l <+: s)
    (h : p.Matches l) : p.fits s = true :=
  fits_iff.mpr ((finds_find ha).ne_nil hl h h.ne_nil)

theorem find_eq_of_longest (ha : p.anchored = true)
    (h : Longest p.Matches s l) : p.find s = l :=
  (longest_find ha (fits_of_isPrefix ha h.isPrefix h.holds)).unique h

/-- What a shape other than blanks finds at the start of a text stays the
same when the text goes on without gluing. -/
theorem find_append_of_glues (ha : p.anchored = true) (hp : p ≠ .blanks)
    (hg : glues s t = false) (hs : s ≠ []) : p.find (s ++ t) = p.find s := by
  refine (finds_find ha).append_of_glues (fun l hl => ?_) hg hs
  cases p with
  | char c => exact Or.inr (by rw [show l = [c] from hl]; exact Nat.le_refl 1)
  | blanks => exact absurd rfl hp
  | word => exact Or.inl (IsWord.forall_isRunChar hl)
  | underscored =>
    refine Or.inl fun c hc => isRunChar_of_isNameChar ?_
    refine IsName.forall_isNameChar (fun d hd => ?_) hl c hc
    rw [eq_of_beq hd]
    rfl
  | number => exact Or.inl (IsNumber.forall_isRunChar hl)
  | leadingPoint => exact Or.inl (IsFraction.forall_isRunChar hl)
  | run => exact Or.inl hl.2
  | digitsAnywhere => cases ha

end Pattern

end MiniC
