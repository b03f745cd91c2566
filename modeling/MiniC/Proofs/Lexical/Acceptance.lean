import MiniC.Proofs.Lexical.Concatenation
import Mathlib.Data.List.Forall2

/-!
Which sources are accepted, and with which kinds.

# Pieces

The scan of a single piece (`lexemes_piece_iff`) is decided by what the
piece spells: blanks give nothing, what a kind is spelled by gives the one
lexeme, and everything else is a fault. That a run is read by several rules
does not help it: a word ends before a point only, and no rule goes on from
a point.

# Sources

As pieces do not glue, sources are scanned piece by piece. The kinds of a
source are therefore those that its pieces, blanks left out, spell one by
one (`lexemes_eq_ok_iff`), and a source is accepted if it has none but
blanks, punctuators and run characters and its maximal runs are words and
numbers (`scan_ok_iff`).
-/

namespace MiniC

open Text

-- ======================================================= spelled alone

/-- What spells a kind is a match of a rule that makes the kind of it. -/
theorem Kind.Spells.exists_rule {k : Kind} {l : List Char} (h : k.Spells l) :
    ∃ r : Rule, r.pattern.Matches l ∧ r.verdict l = .token k := by
  have hfind : ∀ r : Rule, r.pattern.Matches l → r.pattern.find l = l :=
    fun r hm => Pattern.find_eq_of_longest (Rule.anchored_pattern r) (.refl hm)
  cases h with
  | punctuator p => exact ⟨.punctuator p, rfl, rfl⟩
  | keyword k =>
    refine ⟨.word, k.isWord, ?_⟩
    rw [Rule.verdict, hfind .word k.isWord]
    exact congrArg Verdict.token (Kind.ofWord_word k)
  | identifier hw hne =>
    refine ⟨.word, hw, ?_⟩
    rw [Rule.verdict, hfind .word hw]
    exact congrArg Verdict.token (Kind.ofWord_of_ne hne)
  | constant hn =>
    refine ⟨.number, hn, ?_⟩
    rw [Rule.verdict, hfind .number hn, List.drop_length]
    rfl

/-- A text that spells a kind is scanned as that one lexeme. -/
theorem lexemes_of_spells {k : Kind} {l : List Char} (h : k.Spells l) :
    lexemes l = .ok [⟨k, l, 0⟩] := by
  obtain ⟨r, hm, hverdict⟩ := h.exists_rule
  have ha := Rule.anchored_pattern r
  have hstep : (Scan.start l).step Rule.all
      = .more ⟨0 + size l, [], [⟨k, l, 0⟩]⟩ := by
    rw [Scan.step_of_fits (Rule.mem_all r)
      (Pattern.fits_of_isPrefix ha (List.prefix_refl l) hm), Scan.apply]
    dsimp only [Scan.start]
    rw [hverdict, Pattern.find_eq_of_longest ha (.refl hm)]
    exact congrArg Scan.Next.more
      (Scan.push_of_append (List.append_nil l).symm k)
  exact (Scan.run_of_more hstep).trans
    (Scan.run_of_done (Scan.step_of_rest_nil rfl))

theorem lexemes_of_blanks {w : List Char} (hw : ∀ c ∈ w, isBlank c = true) :
    lexemes w = .ok [] :=
  Scan.run_of_blanks hw

-- ======================================================== pieces alone

theorem Kind.Spells.ne_nil {k : Kind} {l : List Char} (h : k.Spells l) :
    l ≠ [] := by
  obtain ⟨r, hm, -⟩ := h.exists_rule
  exact hm.ne_nil

theorem Kind.Spells.isBlank_eq_false {k : Kind} {l : List Char}
    (h : k.Spells l) : ∀ c ∈ l, isBlank c = false := by
  intro c hc
  rcases h.cases with ⟨p, rfl⟩ | hw | hn
  · rw [List.mem_singleton.mp hc]
    exact p.isBlank_char
  · exact isBlank_of_isRunChar (hw.forall_isRunChar c hc)
  · exact isBlank_of_isRunChar (hn.forall_isRunChar c hc)

/-- No lexeme starts with a point. -/
theorem Kind.Spells.head_ne_point {k : Kind} {l : List Char}
    (h : k.Spells l) : l.head? ≠ some '.' := by
  intro hp
  obtain ⟨l, rfl⟩ := List.head?_eq_some_iff.mp hp
  rcases h.cases with ⟨p, hp⟩ | ⟨c, s, heq, hc, -⟩ | hn
  · cases p <;> cases (List.cons.inj hp).1
  · rw [← (List.cons.inj heq).1] at hc
    cases hc
  · cases hn.isDigit_head

/-- No scan gets past a point that stands where it looks. -/
theorem Scan.run_ne_ok_of_head_point {s : Scan}
    (h : s.rest.head? = some '.') (ls : List Lexeme) :
    s.run Rule.all ≠ .ok ls := by
  cases hstep : s.step Rule.all with
  | failed f =>
    rw [run_of_failed hstep]
    exact fun h => by cases h
  | done ls =>
    cases outcome_of_step hstep with
    | done hnil =>
      rw [hnil] at h
      cases h
  | more t =>
    cases outcome_of_step hstep with
    | skip hrest hne hblank =>
      obtain ⟨c, w, rfl⟩ := List.exists_cons_of_ne_nil hne
      rw [hrest, List.cons_append, List.head?_cons] at h
      have hc := hblank c List.mem_cons_self
      rw [Option.some.inj h] at hc
      cases hc
    | read hrest hk _ =>
      rw [hrest, List.head?_append_of_ne_nil _ hk.ne_nil] at h
      exact absurd h hk.head_ne_point

/-- A piece that is scanned to the end is blank or spells a kind. -/
theorem spells_of_lexemes {w : List Char} {ls : List Lexeme}
    (hw : IsPiece w) (h : lexemes w = .ok ls) :
    (∀ c ∈ w, isBlank c = true) ∨ ∃ k : Kind, k.Spells w := by
  cases hstep : (Scan.start w).step Rule.all with
  | failed f =>
    rw [lexemes, Scan.run_of_failed hstep] at h
    cases h
  | done ms =>
    cases Scan.outcome_of_step hstep with
    | done hnil => exact absurd hnil hw.ne_nil
  | more t =>
    rw [lexemes, Scan.run_of_more hstep] at h
    cases Scan.outcome_of_step hstep with
    | skip hrest hne hblank =>
      obtain rfl : w = _ := hrest
      rcases hw.eq_nil_or_glues hne with rfl | hg
      · rw [List.append_nil]
        exact Or.inl hblank
      · rw [glues_blanks_left hblank] at hg
        cases hg
    | read hrest hk hseam =>
      obtain rfl : w = _ := hrest
      rcases hw.eq_nil_or_glues hk.ne_nil with rfl | hg
      · rw [List.append_nil]
        exact Or.inr ⟨_, hk⟩
      · -- the rest of the run starts with a point
        exact absurd h (Scan.run_ne_ok_of_head_point (hseam hg) ls)

/-- The scan of a piece: nothing for blanks, and the one lexeme for what
spells a kind. -/
theorem lexemes_piece_iff {w : List Char} {ls : List Lexeme}
    (hw : IsPiece w) :
    lexemes w = .ok ls ↔ ((∀ c ∈ w, isBlank c = true) ∧ ls = []) ∨
      ∃ k : Kind, k.Spells w ∧ ls = [⟨k, w, 0⟩] := by
  constructor
  · intro h
    rcases spells_of_lexemes hw h with hblank | ⟨k, hk⟩
    · rw [lexemes_of_blanks hblank] at h
      exact Or.inl ⟨hblank, (Except.ok.inj h).symm⟩
    · rw [lexemes_of_spells hk] at h
      exact Or.inr ⟨k, hk, (Except.ok.inj h).symm⟩
  · rintro (⟨hblank, rfl⟩ | ⟨k, hk, rfl⟩)
    · exact lexemes_of_blanks hblank
    · exact lexemes_of_spells hk

-- ======================================================== whole sources

/-- The pieces of a text that are not blank: its maximal runs and its other
characters that are no blanks. -/
def Text.inked (s : List Char) : List (List Char) :=
  (cut s).filter fun w => !w.all isBlank

theorem inked_append {s t : List Char} (hg : glues s t = false) :
    inked (s ++ t) = inked s ++ inked t := by
  unfold inked
  rw [cut_append hg, List.filter_append]

theorem inked_of_blanks {w : List Char} (hw : ∀ c ∈ w, isBlank c = true) :
    inked w = [] := by
  unfold inked
  rw [List.filter_eq_nil_iff]
  intro p hp
  have hblank : p.all isBlank = true := by
    rw [List.all_eq_true]
    intro c hc
    have hmem := List.mem_flatten.mpr ⟨p, hp, hc⟩
    rw [flatten_cut] at hmem
    exact hw c hmem
  simp [hblank]

theorem inked_append_of_blanks {w r : List Char} (hg : glues w r = false)
    (hblank : ∀ c ∈ w, isBlank c = true) : inked (w ++ r) = inked r := by
  rw [inked_append hg, inked_of_blanks hblank, List.nil_append]

theorem inked_append_of_ink {w r : List Char} (hw : IsPiece w)
    (hg : glues w r = false) (hink : ¬ ∀ c ∈ w, isBlank c = true) :
    inked (w ++ r) = w :: inked r := by
  have hall : ¬ w.all isBlank = true := fun h => hink (List.all_eq_true.mp h)
  rw [inked, cut_append hg, cut_piece hw, List.singleton_append,
    List.filter_cons_of_pos (by simpa using hall), inked]

/-- A source is scanned to the end exactly with the kinds that its pieces
spell, in order, blanks left out. -/
theorem lexemes_eq_ok_iff (s : List Char) : ∀ ks : List Kind,
    (∃ ls, lexemes s = .ok ls ∧ ls.map Lexeme.kind = ks) ↔
      List.Forall₂ Kind.Spells ks (inked s) := by
  induction s using piece_induction with
  | nil =>
    intro ks
    rw [lexemes_of_blanks fun c hc => by cases hc]
    refine Iff.trans ?_ List.forall₂_nil_right_iff.symm
    simp [eq_comm]
  | piece w r hw hg ih =>
    intro ks
    rw [lexemes_append hg]
    by_cases hblank : ∀ c ∈ w, isBlank c = true
    · rw [lexemes_of_blanks hblank, inked_append_of_blanks hg hblank, ← ih]
      exact resultAfter_kinds_iff
    · rw [inked_append_of_ink hw hg hblank, List.forall₂_cons_right_iff]
      constructor
      · intro h
        cases hlw : lexemes w with
        | error f =>
          rw [hlw] at h
          obtain ⟨ls, hls, -⟩ := h
          cases hls
        | ok ps =>
          rw [hlw] at h
          obtain ⟨ms, hms, rfl⟩ := resultAfter_kinds_iff.mp h
          rcases (lexemes_piece_iff hw).mp hlw with ⟨hb, -⟩ | ⟨k, hk, rfl⟩
          · exact absurd hb hblank
          · exact ⟨k, _, hk, (ih _).mp ⟨ms, hms, rfl⟩, rfl⟩
      · rintro ⟨k, ks, hk, hks, rfl⟩
        obtain ⟨ms, hms, rfl⟩ := (ih ks).mpr hks
        rw [lexemes_of_spells hk]
        exact resultAfter_kinds_iff.mpr ⟨ms, hms, rfl⟩

theorem scan_eq_ok_iff_lexemes {s : String} {ks : List Kind} :
    scan s = .ok ks ↔
      ∃ ls, lexemes s.toList = .ok ls ∧ ls.map Lexeme.kind = ks := by
  rw [scan, tokenize_eq]
  cases lexemes s.toList with
  | error f => simp [Except.map]
  | ok ls => simp [Except.map, Function.comp_def, Lexeme.token]

-- =========================================================== acceptance

/-- The characters that lexemes and the gaps between them are made of. -/
def IsSourceChar (c : Char) : Prop :=
  isBlank c = true ∨ (∃ p : Punctuator, c = p.char) ∨ isRunChar c = true

theorem exists_forall₂_spells {ws : List (List Char)} :
    (∃ ks : List Kind, List.Forall₂ Kind.Spells ks ws) ↔
      ∀ w ∈ ws, ∃ k : Kind, k.Spells w := by
  induction ws with
  | nil =>
    constructor
    · intro _ w hw
      cases hw
    · exact fun _ => ⟨[], .nil⟩
  | cons w ws ih =>
    rw [List.forall_mem_cons, ← ih]
    constructor
    · rintro ⟨ks, h⟩
      obtain ⟨k, ks, hk, hks, rfl⟩ := List.forall₂_cons_right_iff.mp h
      exact ⟨⟨k, hk⟩, ks, hks⟩
    · rintro ⟨⟨k, hk⟩, ks, hks⟩
      exact ⟨k :: ks, .cons hk hks⟩

theorem mem_inked {s w : List Char} :
    w ∈ inked s ↔ w ∈ cut s ∧ ¬ ∀ c ∈ w, isBlank c = true := by
  rw [inked, List.mem_filter, Bool.not_eq_true', Bool.eq_false_iff, ne_eq,
    List.all_eq_true]

theorem Kind.Spells.isSourceChar {k : Kind} {l : List Char}
    (h : k.Spells l) : ∀ c ∈ l, IsSourceChar c := by
  intro c hc
  rcases h.cases with ⟨p, rfl⟩ | hword | hnumber
  · exact Or.inr (Or.inl ⟨p, List.mem_singleton.mp hc⟩)
  · exact Or.inr (Or.inr (hword.forall_isRunChar c hc))
  · exact Or.inr (Or.inr (hnumber.forall_isRunChar c hc))

/-- Runs spell kinds as words and numbers only. -/
theorem exists_spells_run_iff {w : List Char}
    (hrun : ∀ c ∈ w, isRunChar c = true) :
    (∃ k : Kind, k.Spells w) ↔ IsWord w ∨ IsNumber w := by
  constructor
  · rintro ⟨k, hk⟩
    rcases hk.cases with ⟨p, rfl⟩ | hlexeme
    · have hp := hrun p.char List.mem_cons_self
      rw [p.isRunChar_char] at hp
      cases hp
    · exact hlexeme
  · rintro (hword | hnumber)
    · exact ⟨_, Kind.spells_ofWord hword⟩
    · exact ⟨_, .constant hnumber⟩

/-- All inked pieces of a source spell kinds if its characters are those of
sources and its maximal runs are words and numbers. -/
theorem forall_mem_inked_spells_iff {s : List Char} :
    (∀ w ∈ inked s, ∃ k : Kind, k.Spells w) ↔
      (∀ c ∈ s, IsSourceChar c) ∧
        ∀ w, IsMaximalRun s w → IsWord w ∨ IsNumber w := by
  constructor
  · intro h
    constructor
    · intro c hc
      rw [← flatten_cut s] at hc
      obtain ⟨w, hw, hcw⟩ := List.mem_flatten.mp hc
      by_cases hblank : ∀ c ∈ w, isBlank c = true
      · exact Or.inl (hblank c hcw)
      · obtain ⟨k, hk⟩ := h w (mem_inked.mpr ⟨hw, hblank⟩)
        exact hk.isSourceChar c hcw
    · intro w hw
      have hcut := mem_cut_of_isMaximalRun hw
      obtain ⟨hne, hrun, -⟩ := hw
      refine (exists_spells_run_iff hrun).mp (h w (mem_inked.mpr ⟨hcut, ?_⟩))
      intro hblank
      obtain ⟨c, v, rfl⟩ := List.exists_cons_of_ne_nil hne
      have hc := hblank c List.mem_cons_self
      rw [isBlank_of_isRunChar (hrun c List.mem_cons_self)] at hc
      cases hc
  · rintro ⟨hchar, hmax⟩ w hw
    obtain ⟨hcut, hink⟩ := mem_inked.mp hw
    rcases mem_cut_cases hcut with hrun | ⟨c, hc, rfl, hnot⟩
    · exact (exists_spells_run_iff hrun.2.1).mpr (hmax w hrun)
    · rcases hchar c hc with hb | ⟨p, rfl⟩ | hr
      · exact absurd (by simpa using hb) hink
      · exact ⟨_, .punctuator p⟩
      · rw [hnot] at hr
        cases hr

/-- A source is accepted exactly if all its characters are those of sources
and each of its maximal runs is, as a whole, a word or a number. Its kinds
are exactly those that its punctuators and its maximal runs spell, from the
first to the last. -/
theorem scan_ok_iff (s : String) :
    ((∃ ks, scan s = .ok ks) ↔
      (∀ c ∈ s.toList, IsSourceChar c) ∧
        ∀ w, IsMaximalRun s.toList w → IsWord w ∨ IsNumber w) ∧
    ∀ ks, scan s = .ok ks ↔ List.Forall₂ Kind.Spells ks (inked s.toList) := by
  have hkinds : ∀ ks,
      scan s = .ok ks ↔ List.Forall₂ Kind.Spells ks (inked s.toList) :=
    fun ks => scan_eq_ok_iff_lexemes.trans (lexemes_eq_ok_iff s.toList ks)
  refine ⟨?_, hkinds⟩
  rw [← forall_mem_inked_spells_iff, ← exists_forall₂_spells]
  exact exists_congr hkinds

end MiniC
