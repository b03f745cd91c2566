import MiniC.Proofs.Lexical.Exclusion
import MiniC.Proofs.Lexical.Spelling

/-!
What one step of the scan can do.

# Blame

A text that no lexeme starts is blamed with a failure (`Blames`), said of
the text alone: neither where it stands nor which rule reads it matters. A
step fails with what the text ahead is blamed with (`step_of_blames`), so
that there is no more than one failure to blame (`Blames.unique`).

# Outcomes

`outcome_step` is the inversion that every proof about runs goes by. A step
ends at the end of the text, skips blanks, reads a lexeme or blames the
text ahead. After a lexeme the text ahead glues to it only with a point,
and a point starts nothing: what a word leaves of its run is always a
fault.
-/

namespace MiniC

open Text

-- =============================================================== blame

/-- What is wrong with a number when the text goes on after it. -/
inductive Malformation.Holds (d : List Char) :
    List Char → Malformation → Prop
  | secondPoint {v : List Char} : '.' ∈ d → Holds d ('.' :: v) .secondPoint
  | trailingPoint {v : List Char} : '.' ∉ d →
      (∀ c ∈ v.head?, c.isDigit = false) → Holds d ('.' :: v) .trailingPoint
  | nameSuffix {c : Char} {v : List Char} : (c.isAlpha = true ∨ c = '_') →
      Holds d (c :: v) .nameSuffix

/-- The failure that a text is blamed with when no lexeme starts it. -/
inductive Blames : List Char → Failure → Prop
  | underscore {v : List Char} :
      Blames ('_' :: v) (.invalidIdentifier
        (String.ofList (('_' :: v).takeWhile isNameChar)))
  | number {d v : List Char} {reason : Malformation} :
      Longest IsNumber (d ++ v) d → reason.Holds d v →
      Blames (d ++ v) (.malformedNumber
        (String.ofList ((d ++ v).takeWhile isRunChar)) reason)
  | leadingPoint {c : Char} {v : List Char} : c.isDigit = true →
      Blames ('.' :: c :: v) (.malformedNumber
        (String.ofList (('.' :: c :: v).takeWhile isRunChar)) .missingWhole)
  | unknown {c : Char} {v : List Char} : isBlank c = false →
      (∀ p : Punctuator, c ≠ p.char) → c.isAlpha = false → c.isDigit = false →
      c ≠ '_' → (c = '.' → ∀ d ∈ v.head?, d.isDigit = false) →
      Blames (c :: v) (.unknownCharacter (String.ofList [c]))

theorem IsNumber.concat {d : List Char} {c : Char} (h : IsNumber d)
    (hc : c.isDigit = true) : IsNumber (d ++ [c]) := by
  have hall : ∀ {a : List Char}, IsDigits a → IsDigits (a ++ [c]) := by
    intro a ha
    refine ⟨List.append_ne_nil_of_left_ne_nil ha.1 _, ?_⟩
    exact List.forall_mem_append.mpr
      ⟨ha.2, fun e he => by rw [List.mem_singleton.mp he]; exact hc⟩
  obtain ⟨a, b, rfl, ha, rfl | ⟨ds, rfl, hds⟩⟩ := h
  · rw [List.append_nil]
    exact (hall ha).isNumber
  · exact ⟨a, '.' :: (ds ++ [c]), by simp, ha, Or.inr ⟨_, rfl, hall hds⟩⟩

theorem IsNumber.append_fraction {d ds : List Char} (h : IsNumber d)
    (hp : '.' ∉ d) (hds : IsDigits ds) : IsNumber (d ++ '.' :: ds) := by
  obtain ⟨a, b, rfl, ha, rfl | ⟨es, rfl, -⟩⟩ := h
  · rw [List.append_nil]
    exact ⟨a, '.' :: ds, rfl, ha, Or.inr ⟨ds, rfl, hds⟩⟩
  · exact absurd (by simp) hp

/-- The check behind a number tells what is wrong with it. -/
theorem holds_of_malformation? {d v : List Char} {reason : Malformation}
    (hlong : Longest IsNumber (d ++ v) d)
    (h : Rule.malformation? d v.head? = some reason) : reason.Holds d v := by
  cases v with
  | nil => cases h
  | cons c v =>
    rw [List.head?_cons, Rule.malformation?] at h
    split at h
    · next hc =>
      subst hc
      cases h
      split
      · next hp => exact .secondPoint (List.contains_iff_mem.mp hp)
      · next hp =>
        have hnot : '.' ∉ d := fun hmem => hp (List.contains_iff_mem.mpr hmem)
        refine .trailingPoint hnot fun e he => ?_
        cases hdigit : e.isDigit with
        | false => rfl
        | true =>
          -- otherwise the number would have gone on with a fraction
          obtain ⟨w, rfl⟩ : ∃ w, v = e :: w := List.head?_eq_some_iff.mp he
          have hnum : IsNumber (d ++ ['.', e]) :=
            hlong.holds.append_fraction hnot
              ⟨List.cons_ne_nil e [], by simpa using hdigit⟩
          have hle := hlong.length_le _
            ((List.prefix_append_right_inj d).mpr ⟨w, rfl⟩) hnum
          rw [List.length_append, List.length_cons] at hle
          omega
    · split at h
      · next hc hname =>
        cases h
        refine .nameSuffix ?_
        have hdigit : c.isDigit ≠ true :=
          fun hd => hlong.not_holds_concat (hlong.holds.concat hd)
        rw [isNameChar, Char.isAlphanum, Bool.or_eq_true, Bool.or_eq_true,
          beq_iff_eq] at hname
        rcases hname with (halpha | hd) | hunder
        · exact Or.inl halpha
        · exact absurd hd hdigit
        · exact Or.inr hunder
      · cases h

/-- A number that passes the check ends its run. -/
theorem stop_of_malformation? {d v : List Char}
    (h : Rule.malformation? d v.head? = none) :
    ∀ c ∈ v.head?, isRunChar c = false := by
  intro c hc
  rw [hc, Rule.malformation?] at h
  split at h
  · cases h
  · next hpoint =>
    split at h
    · cases h
    · next hname =>
      rw [isRunChar, Bool.or_eq_false_iff, beq_eq_false_iff_ne]
      exact ⟨by simpa using hname, hpoint⟩

theorem malformation?_of_holds {d v : List Char} {reason : Malformation}
    (h : reason.Holds d v) : Rule.malformation? d v.head? = some reason := by
  cases h with
  | secondPoint hp =>
    exact congrArg some (if_pos (List.contains_iff_mem.mpr hp))
  | trailingPoint hp _ =>
    exact congrArg some
      (if_neg fun hmem => hp (List.contains_iff_mem.mp hmem))
  | @nameSuffix c v hc =>
    rcases hc with halpha | rfl
    · have hpoint : c ≠ '.' := by
        rintro rfl
        cases halpha
      rw [List.head?_cons, Rule.malformation?, if_neg hpoint,
        if_pos (isNameChar_of_isAlpha halpha)]
    · rfl

theorem Blames.exists_cons {s : List Char} {f : Failure} (h : Blames s f) :
    ∃ c v, s = c :: v ∧ isBlank c = false := by
  cases h with
  | underscore => exact ⟨_, _, rfl, rfl⟩
  | leadingPoint _ => exact ⟨_, _, rfl, rfl⟩
  | unknown hblank _ _ _ _ _ => exact ⟨_, _, rfl, hblank⟩
  | @number d v _ hlong _ =>
    have hnum := hlong.holds
    cases d with
    | nil => exact absurd rfl (Pattern.Matches.ne_nil (p := .number) hnum)
    | cons c d =>
      exact ⟨c, d ++ v, rfl,
        isBlank_of_isRunChar (isRunChar_of_isDigit hnum.isDigit_head)⟩

/-- A text is blamed with an unknown character where no rule fits it. -/
theorem blames_of_not_fits {c : Char} {v : List Char}
    (h : ∀ r : Rule, r.pattern.fits (c :: v) = false) :
    Blames (c :: v) (.unknownCharacter (String.ofList [c])) := by
  have hno : ∀ (r : Rule) (l : List Char), l <+: c :: v →
      ¬ r.pattern.Matches l := by
    intro r l hl hm
    have hfits := Pattern.fits_of_isPrefix (Rule.anchored_pattern r) hl hm
    rw [h r] at hfits
    cases hfits
  have hone : [c] <+: c :: v := ⟨v, rfl⟩
  refine .unknown ?_ ?_ ?_ ?_ ?_ ?_
  · rw [Bool.eq_false_iff]
    exact fun hblank => hno .blanks [c] hone ⟨List.cons_ne_nil c [], by simpa⟩
  · rintro p rfl
    exact hno (.punctuator p) [p.char] hone rfl
  · rw [Bool.eq_false_iff]
    exact fun halpha => hno .word [c] hone ⟨c, [], rfl, halpha, by simp⟩
  · rw [Bool.eq_false_iff]
    intro hdigit
    have hds : IsDigits [c] := ⟨List.cons_ne_nil c [], by simpa⟩
    exact hno .number [c] hone hds.isNumber
  · rintro rfl
    exact hno .underscored ['_'] hone ⟨'_', [], rfl, rfl, by simp⟩
  · rintro rfl d hd
    obtain ⟨w, rfl⟩ : ∃ w, v = d :: w := List.head?_eq_some_iff.mp hd
    rw [Bool.eq_false_iff]
    intro hdigit
    exact hno .leadingPoint ['.', d] ⟨w, rfl⟩
      ⟨[d], rfl, List.cons_ne_nil d [], by simpa⟩

-- ============================================================== outcomes

namespace Scan

/-- Where a step leads from a place, said without the rules. -/
inductive Outcome (s : Scan) : Next → Prop
  | done : s.rest = [] → Outcome s (.done s.found.reverse)
  | skip {w v : List Char} : s.rest = w ++ v → w ≠ [] →
      (∀ c ∈ w, isBlank c = true) →
      Outcome s (.more ⟨s.offset + size w, v, s.found⟩)
  | read {k : Kind} {l v : List Char} : s.rest = l ++ v → k.Spells l →
      (glues l v = true → v.head? = some '.') →
      Outcome s (.more ⟨s.offset + size l, v, ⟨k, l, s.offset⟩ :: s.found⟩)
  | fail {f : Failure} : Blames s.rest f → Outcome s (.failed ⟨s.offset, f⟩)

theorem advance_of_append {s : Scan} {l v : List Char} (h : s.rest = l ++ v) :
    s.advance l = ⟨s.offset + size l, v, s.found⟩ := by
  rw [advance, h, List.drop_left]

theorem push_of_append {s : Scan} {l v : List Char} (h : s.rest = l ++ v)
    (k : Kind) :
    s.push k l = ⟨s.offset + size l, v, ⟨k, l, s.offset⟩ :: s.found⟩ := by
  rw [push, advance_of_append h]

/-- A whole word glues to what follows only with a point. -/
theorem head_of_longest_word {l v : List Char}
    (h : Longest IsWord (l ++ v) l) (hg : glues l v = true) :
    v.head? = some '.' := by
  cases v with
  | nil =>
    rw [glues_nil_right] at hg
    cases hg
  | cons c v =>
    -- the word would have gone on with a name character
    have hname : isNameChar c = false := by
      rw [Bool.eq_false_iff]
      refine fun hc => h.not_holds_concat ?_
      obtain ⟨d, w, rfl, hd, hall⟩ := h.holds
      refine ⟨d, w ++ [c], rfl, hd, List.forall_mem_append.mpr ⟨hall, ?_⟩⟩
      exact fun e he => by rw [List.mem_singleton.mp he]; exact hc
    rw [glues, Bool.and_eq_true, List.head?_cons, Option.any_some, isRunChar,
      hname, Bool.false_or, beq_iff_eq] at hg
    rw [List.head?_cons, hg.2]

theorem outcome_apply {s : Scan} {r : Rule}
    (h : r.pattern.fits s.rest = true) : Outcome s (s.apply r) := by
  have hlong := Pattern.longest_find (Rule.anchored_pattern r) h
  obtain ⟨v, hv⟩ := hlong.isPrefix
  unfold apply
  dsimp only [Rule.verdict]
  generalize r.pattern.find s.rest = l at hlong hv
  have hdrop : s.rest.drop l.length = v := by rw [← hv, List.drop_left]
  simp only [advance_of_append hv.symm, push_of_append hv.symm, hdrop]
  rw [← hv] at hlong
  cases r with
  | blanks => exact .skip hv.symm hlong.holds.1 hlong.holds.2
  | punctuator p =>
    obtain rfl : l = [p.char] := hlong.holds
    refine .read hv.symm (.punctuator p) fun hg => ?_
    rw [glues_of_getLast (by rintro c ⟨⟩; exact p.isRunChar_char)] at hg
    cases hg
  | word =>
    exact .read hv.symm (Kind.spells_ofWord hlong.holds)
      (head_of_longest_word hlong)
  | underscored =>
    obtain ⟨c, w, rfl, hc, -⟩ := hlong.holds
    cases eq_of_beq hc
    have hl : ('_' :: (w ++ v)).takeWhile isNameChar = '_' :: w :=
      Pattern.find_eq_of_longest (p := .underscored) rfl hlong
    have hblame : Blames ('_' :: (w ++ v)) _ := .underscore
    refine .fail ?_
    rwa [hl, ← List.cons_append, hv] at hblame
  | number =>
    cases hreason : Rule.malformation? l v.head? with
    | some reason =>
      refine .fail ?_
      dsimp only [Rule.malformedNumber]
      rw [← hv]
      exact .number hlong (holds_of_malformation? hlong hreason)
    | none =>
      refine .read hv.symm (.constant hlong.holds) fun hg => ?_
      rw [glues_of_head (stop_of_malformation? hreason)] at hg
      cases hg
  | leadingPoint =>
    obtain ⟨ds, rfl, hne, hdigit⟩ := hlong.holds
    obtain ⟨d, ds, rfl⟩ := List.exists_cons_of_ne_nil hne
    refine .fail ?_
    dsimp only [Rule.malformedNumber]
    rw [← hv]
    exact .leadingPoint (hdigit d List.mem_cons_self)

/-- What a step can do. -/
theorem outcome_step (s : Scan) : Outcome s (s.step Rule.all) := by
  cases hrest : s.rest with
  | nil =>
    rw [step_of_rest_nil hrest]
    exact .done hrest
  | cons c v =>
    by_cases hfits : ∃ r : Rule, r.pattern.fits s.rest = true
    · obtain ⟨r, hr⟩ := hfits
      rw [step_of_fits (Rule.mem_all r) hr]
      exact outcome_apply hr
    · have hno : ∀ r : Rule, r.pattern.fits s.rest = false :=
        fun r => Bool.eq_false_iff.mpr fun hr => hfits ⟨r, hr⟩
      rw [step_of_not_fits hrest fun r _ => hno r]
      refine .fail ?_
      rw [hrest] at hno ⊢
      exact blames_of_not_fits hno

theorem outcome_of_step {s : Scan} {next : Next}
    (h : s.step Rule.all = next) : Outcome s next :=
  h ▸ outcome_step s

-- ================================================== the failing outcome

theorem step_of_fault {s : Scan} {r : Rule} {f : Failure}
    (hfits : r.pattern.fits s.rest = true)
    (hverdict : r.verdict s.rest = .fault f) :
    s.step Rule.all = .failed ⟨s.offset, f⟩ := by
  rw [step_of_fits (Rule.mem_all r) hfits, apply, hverdict]

/-- A step fails as the text ahead is blamed. -/
theorem step_of_blames {s : Scan} {f : Failure} (h : Blames s.rest f) :
    s.step Rule.all = .failed ⟨s.offset, f⟩ := by
  generalize hrest : s.rest = v at h
  cases h with
  | @underscore v =>
    have hfits : Rule.underscored.pattern.fits ('_' :: v) = true := rfl
    rw [← hrest] at hfits
    refine step_of_fault hfits ?_
    rw [hrest]
    rfl
  | @number d v reason hlong hreason =>
    have hfits : Rule.number.pattern.fits (d ++ v) = true :=
      Pattern.fits_of_isPrefix rfl hlong.isPrefix hlong.holds
    have hfind : Rule.number.pattern.find (d ++ v) = d :=
      Pattern.find_eq_of_longest (p := .number) rfl hlong
    rw [← hrest] at hfits
    refine step_of_fault hfits ?_
    rw [hrest, Rule.verdict, hfind, List.drop_left,
      malformation?_of_holds hreason]
    rfl
  | @leadingPoint c v hc =>
    have hmatches : IsFraction ['.', c] :=
      ⟨[c], rfl, List.cons_ne_nil c [], by simpa⟩
    have hfits : Rule.leadingPoint.pattern.fits ('.' :: c :: v) = true :=
      Pattern.fits_of_isPrefix rfl ⟨v, rfl⟩ hmatches
    rw [← hrest] at hfits
    refine step_of_fault hfits ?_
    rw [hrest]
    rfl
  | @unknown c v hblank hpunctuator halpha hdigit hunder hpoint =>
    refine step_of_not_fits hrest fun r _ => ?_
    rw [hrest, Bool.eq_false_iff]
    intro hfits
    have hstarts := Rule.starts_of_fits hfits
    cases r with
    | blanks => exact absurd hstarts (by simp [Rule.starts, hblank])
    | punctuator p => exact hpunctuator p (eq_of_beq hstarts)
    | word => exact absurd hstarts (by simp [Rule.starts, halpha])
    | underscored => exact hunder (eq_of_beq hstarts)
    | number => exact absurd hstarts (by simp [Rule.starts, hdigit])
    | leadingPoint =>
      -- the point alone does not fit, and no digit comes after it
      have hlong := Pattern.longest_find (p := .leadingPoint) rfl hfits
      obtain ⟨ds, hl, hne, hds⟩ := hlong.holds
      obtain ⟨d, ds, rfl⟩ := List.exists_cons_of_ne_nil hne
      obtain ⟨w, hw⟩ := hlong.isPrefix
      rw [hl] at hw
      obtain ⟨hc, hv⟩ := List.cons.inj hw
      have hd := hpoint hc.symm d (by rw [← hv]; rfl)
      rw [hds d List.mem_cons_self] at hd
      cases hd

end Scan

/-- A text is blamed with one failure at most. -/
theorem Blames.unique {s : List Char} {f g : Failure} (hf : Blames s f)
    (hg : Blames s g) : f = g := by
  have hstep := Scan.step_of_blames (s := Scan.start s) hf
  rw [Scan.step_of_blames (s := Scan.start s) hg] at hstep
  cases hstep
  rfl

end MiniC
