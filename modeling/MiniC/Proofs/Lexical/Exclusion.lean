import MiniC.Lexical.Scan
import MiniC.Proofs.Lexical.Shape

/-!
The rules exclude each other.

Each rule reads texts that start in a class of characters of its own
(`Rule.starts`), and no character is in two of these classes
(`owner_of_starts`). So at most one rule fits a text (`fits_unique`), and the
rule that a step finds is the one that fits, whatever the order in which
the rules are tried (`step_of_fits`).
-/

namespace MiniC

open Text

namespace Rule

variable {r r' : Rule} {s : List Char} {c : Char}

/-- The characters that the texts of a rule start with. -/
def starts : Rule → Char → Bool
  | .blanks, c => isBlank c
  | .punctuator p, c => c == p.char
  | .word, c => c.isAlpha
  | .underscored, c => c == '_'
  | .number, c => c.isDigit
  | .leadingPoint, c => c == '.'

theorem starts_of_matches (h : r.pattern.Matches (c :: s)) :
    r.starts c = true := by
  cases r with
  | blanks => exact h.2 c List.mem_cons_self
  | punctuator p =>
    have hc : c :: s = [p.char] := h
    rw [(List.cons.inj hc).1]
    exact beq_self_eq_true p.char
  | word =>
    obtain ⟨d, l, heq, hd, -⟩ := h
    rw [(List.cons.inj heq).1]
    exact hd
  | underscored =>
    obtain ⟨d, l, heq, hd, -⟩ := h
    rw [(List.cons.inj heq).1]
    exact hd
  | number => exact IsNumber.isDigit_head h
  | leadingPoint =>
    obtain ⟨ds, heq, -⟩ := h
    rw [(List.cons.inj heq).1]
    rfl

/-- A rule fits only a text that starts in its class. -/
theorem starts_of_fits (h : r.pattern.fits (c :: s) = true) :
    r.starts c = true := by
  have hlong := Pattern.longest_find (anchored_pattern r) h
  obtain ⟨d, l, hl⟩ := List.exists_cons_of_ne_nil hlong.holds.ne_nil
  have hpre := hlong.isPrefix
  rw [hl] at hpre
  rw [← (List.cons_prefix_cons.mp hpre).1]
  exact starts_of_matches (hl ▸ hlong.holds)

theorem fits_nil (r : Rule) : r.pattern.fits [] = false := by
  have hpre := Pattern.find_isPrefix (anchored_pattern r) []
  rw [Pattern.fits, List.prefix_nil.mp hpre]
  rfl

-- ===================================================== disjoint classes

/-- The one rule whose texts may start with a character, if any does. -/
def owner (c : Char) : Rule :=
  if c.isAlpha then .word
  else if c.isDigit then .number
  else if c = '_' then .underscored
  else if c = '.' then .leadingPoint
  else
    match Punctuator.all.find? (·.char == c) with
    | some p => .punctuator p
    | none => .blanks

theorem owner_of_starts (h : r.starts c = true) : owner c = r := by
  cases r with
  | blanks => rcases isBlank_cases h with rfl | rfl | rfl | rfl <;> rfl
  | punctuator p => cases eq_of_beq h; cases p <;> rfl
  | word => exact if_pos h
  | underscored => cases eq_of_beq h; rfl
  | number =>
    have hnot : c.isAlpha ≠ true := by
      intro halpha
      rw [starts, isDigit_of_isAlpha halpha] at h
      cases h
    rw [owner, if_neg hnot]
    exact if_pos h
  | leadingPoint => cases eq_of_beq h; rfl

/-- At most one rule fits a text. -/
theorem fits_unique (h : r.pattern.fits s = true)
    (h' : r'.pattern.fits s = true) : r = r' := by
  cases s with
  | nil =>
    rw [fits_nil] at h
    cases h
  | cons c s =>
    rw [← owner_of_starts (starts_of_fits h),
      owner_of_starts (starts_of_fits h')]

theorem mem_all (r : Rule) : r ∈ all := by
  cases r with
  | punctuator p => cases p <;> decide
  | _ => decide

theorem find?_of_fits {rules : List Rule} (hr : r ∈ rules)
    (h : r.pattern.fits s = true) :
    rules.find? (·.pattern.fits s) = some r := by
  have hsome : (rules.find? (·.pattern.fits s)).isSome = true :=
    List.find?_isSome.mpr ⟨r, hr, h⟩
  obtain ⟨r', hr'⟩ := Option.isSome_iff_exists.mp hsome
  have hfits := List.find?_some hr'
  rw [hr', fits_unique h hfits]

end Rule

-- ================================================================= steps

namespace Scan

variable {rules : List Rule} {r : Rule} {s : Scan}

/-- A step applies the rule that fits. -/
theorem step_of_fits (hr : r ∈ rules) (h : r.pattern.fits s.rest = true) :
    s.step rules = s.apply r := by
  unfold step
  cases hrest : s.rest with
  | nil =>
    rw [hrest, Rule.fits_nil] at h
    cases h
  | cons c v =>
    rw [hrest] at h
    rw [Rule.find?_of_fits hr h]

theorem step_of_not_fits {c : Char} {v : List Char} (hrest : s.rest = c :: v)
    (h : ∀ r ∈ rules, r.pattern.fits s.rest = false) :
    s.step rules
      = .failed ⟨s.offset, .unknownCharacter (String.ofList [c])⟩ := by
  rw [hrest] at h
  have hfind : rules.find? (·.pattern.fits (c :: v)) = none := by
    rw [List.find?_eq_none]
    intro r hr
    rw [h r hr]
    exact Bool.false_ne_true
  unfold step
  rw [hrest]
  dsimp only
  rw [hfind]

theorem step_of_rest_nil (hrest : s.rest = []) :
    s.step rules = .done s.found.reverse := by
  unfold step
  rw [hrest]

end Scan

end MiniC
