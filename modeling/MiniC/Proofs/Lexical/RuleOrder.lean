import MiniC.Proofs.Lexical.Run

/-!
The order of the rules.

A step takes the first rule that fits, so the order in which rules are tried
could decide what a text is. It cannot: where at most one rule fits
(`Rule.countP_fits_le_one`), the first is the only one. What a step does
depends on which rules there are and on nothing else about them
(`Scan.step_congr`), and by induction along the run so does the whole scan
(`Scan.run_congr`).
-/

namespace MiniC

namespace Rule

variable {rules rules' : List Rule}

/-- Of rules that are listed once each, at most one fits a text. -/
theorem countP_fits_le_one (h : rules.Nodup) (s : List Char) :
    rules.countP (·.pattern.fits s) ≤ 1 := by
  rw [List.countP_eq_length_filter]
  have hnodup := h.filter (·.pattern.fits s)
  have hfits : ∀ r ∈ rules.filter (·.pattern.fits s),
      r.pattern.fits s = true := fun r hr => (List.mem_filter.mp hr).2
  cases hl : rules.filter (·.pattern.fits s) with
  | nil => exact Nat.zero_le 1
  | cons r rs =>
    rw [hl] at hnodup hfits
    cases rs with
    | nil => exact Nat.le_refl 1
    | cons r' rs =>
      have heq : r = r' := fits_unique (hfits r (by simp)) (hfits r' (by simp))
      rw [heq] at hnodup
      simp at hnodup

/-- Which rule is found depends only on which rules there are. -/
theorem find?_fits_congr (h : ∀ r, r ∈ rules ↔ r ∈ rules') (s : List Char) :
    rules.find? (·.pattern.fits s) = rules'.find? (·.pattern.fits s) := by
  by_cases hex : ∃ r ∈ rules, r.pattern.fits s = true
  · obtain ⟨r, hr, hfits⟩ := hex
    rw [find?_of_fits hr hfits, find?_of_fits ((h r).mp hr) hfits]
  · have hno : ∀ r ∈ rules, ¬ r.pattern.fits s = true :=
      fun r hr hfits => hex ⟨r, hr, hfits⟩
    have hno' : ∀ r ∈ rules', ¬ r.pattern.fits s = true :=
      fun r hr => hno r ((h r).mpr hr)
    rw [List.find?_eq_none.mpr hno, List.find?_eq_none.mpr hno']

theorem nodup_all : all.Nodup := by
  decide

end Rule

namespace Scan

variable {rules rules' : List Rule}

theorem step_congr (h : ∀ r, r ∈ rules ↔ r ∈ rules') (s : Scan) :
    s.step rules = s.step rules' := by
  unfold step
  cases s.rest with
  | nil => rfl
  | cons c v =>
    dsimp only
    rw [Rule.find?_fits_congr h (c :: v)]

theorem run_congr (h : ∀ r, r ∈ rules ↔ r ∈ rules') (s : Scan) :
    s.run rules = s.run rules' := by
  induction s using step_induction rules with
  | step s ih =>
    have hstep : s.step rules' = s.step rules := (step_congr h s).symm
    cases hnext : s.step rules with
    | more t =>
      rw [hnext] at hstep
      rw [run_of_more hnext, run_of_more hstep, ih t hnext]
    | done ls =>
      rw [hnext] at hstep
      rw [run_of_done hnext, run_of_done hstep]
    | failed f =>
      rw [hnext] at hstep
      rw [run_of_failed hnext, run_of_failed hstep]

end Scan

/-- However the rules are put in order, at most one of them fits a text, and
a source has the same tokens or the same diagnosis. -/
theorem tokenizeBy_perm (rules : List Rule) (h : rules.Perm Rule.all) :
    (∀ s : List Char, rules.countP (·.pattern.fits s) ≤ 1) ∧
    ∀ (source : String) (file : Option String),
      tokenizeBy rules source file = tokenize source file := by
  refine ⟨Rule.countP_fits_le_one (h.nodup_iff.mpr Rule.nodup_all), ?_⟩
  intro source file
  unfold tokenize tokenizeBy
  rw [Scan.run_congr fun r => h.mem_iff]

/-- The rules from the last to the first, on a source with tokens and on a
number that goes on. -/
theorem tokenizeBy_perm_reverse :
    Rule.all.reverse.Perm Rule.all ∧
      Rule.all.reverse.countP (·.pattern.fits "1.5_".toList) ≤ 1 ∧
      tokenizeBy Rule.all.reverse "int x1;" (some "a.c")
        = .ok [⟨.keyword .int, .ofOffset 0 3 "a.c"⟩,
            ⟨.identifier "x1", .ofOffset 4 2 "a.c"⟩,
            ⟨.punctuator .semicolon, .ofOffset 6 1 "a.c"⟩] ∧
      tokenizeBy Rule.all.reverse "x1 1.5_;" (some "a.c")
        = .error ⟨.malformedNumber "1.5_" .nameSuffix, .lex,
            .ofOffset 3 "a.c"⟩ := by
  have hperm : Rule.all.reverse.Perm Rule.all := List.reverse_perm Rule.all
  obtain ⟨hone, hsame⟩ := tokenizeBy_perm Rule.all.reverse hperm
  refine ⟨hperm, hone "1.5_".toList, ?_, ?_⟩
  · rw [hsame]
    decide +kernel
  · rw [hsame]
    decide +kernel

end MiniC
