import MiniC.Proofs.Lexical.Acceptance

/-!
Where a source fails, and with what.

# Places of a run

Wherever a run stands, the text before is a source of its own, without a
fault and with just the lexemes found so far (`Scan.Reached`). Every step
keeps this (`Reached.step`). The one seam where the text before could have
gone on is in front of a point, and a lexeme never starts with one, so the
next lexeme leaves those before it as they are.

# The failure

A source with a fault is therefore one without, and after it a text to be
blamed (`lexemes_eq_error`). `tokenize_error` says so of the diagnosis.
-/

namespace MiniC

open Text

namespace Scan

/-- The run over a source stands at `s`, behind the text `pre`: this alone
is scanned with the lexemes found, and the text ahead glues to it only with
a point. -/
structure Reached (source pre : List Char) (s : Scan) : Prop where
  source : source = pre ++ s.rest
  offset : s.offset = size pre
  found : lexemes pre = .ok s.found.reverse
  seam : glues pre s.rest = true → s.rest.head? = some '.'

variable {source pre : List Char} {s t : Scan}

theorem reached_start (source : List Char) :
    Reached source [] (start source) where
  source := rfl
  offset := rfl
  found := lexemes_of_blanks (List.forall_mem_nil _)
  seam h := by
    rw [glues_nil_left] at h
    cases h

/-- A text that starts with no point may be scanned apart from the text
before. -/
theorem Reached.glues_eq_false {w v : List Char} (h : Reached source pre s)
    (hrest : s.rest = w ++ v) (hne : w ≠ []) (hw : w.head? ≠ some '.') :
    glues pre w = false := by
  rw [Bool.eq_false_iff]
  intro hg
  have hpoint := h.seam (by rwa [hrest, glues_append_right v hne])
  rw [hrest, List.head?_append_of_ne_nil w hne] at hpoint
  exact hw hpoint

/-- Every step keeps the text before without a fault. -/
theorem Reached.step (h : Reached source pre s)
    (hstep : s.step Rule.all = .more t) :
    ∃ pre', Reached source pre' t := by
  cases outcome_of_step hstep with
  | @skip w v hrest hne hblank =>
    have hg : glues pre w = false := glues_blanks_right hblank
    refine ⟨pre ++ w, ?_, ?_, ?_, ?_⟩
    · rw [List.append_assoc, ← hrest]
      exact h.source
    · rw [size_append, ← h.offset]
    · rw [lexemes_append hg, h.found, lexemes_of_blanks hblank]
      exact congrArg Except.ok (List.append_nil _)
    · intro hseam
      rw [glues_append_left pre hne, glues_blanks_left hblank] at hseam
      cases hseam
  | @read k l v hrest hk hseam =>
    have hg : glues pre l = false :=
      h.glues_eq_false hrest hk.ne_nil hk.head_ne_point
    refine ⟨pre ++ l, ?_, ?_, ?_, ?_⟩
    · rw [List.append_assoc, ← hrest]
      exact h.source
    · rw [size_append, ← h.offset]
    · rw [lexemes_append hg, h.found, lexemes_of_spells hk, h.offset]
      exact congrArg Except.ok List.reverse_cons.symm
    · rw [glues_append_left pre hk.ne_nil]
      exact hseam

end Scan

/-- What every step keeps holds at the place of a fault, and the text ahead
is blamed there. -/
theorem Scan.exists_of_lexemes_eq_error {s : List Char} {f : Fault}
    (h : lexemes s = .error f) (Inv : Scan → Prop)
    (keep : ∀ t u, Inv t → t.step Rule.all = .more u → Inv u)
    (hstart : Inv (start s)) :
    ∃ t, Inv t ∧ f.offset = t.offset ∧ Blames t.rest f.failure := by
  obtain ⟨t, ht, ⟨ls, -, hrun⟩ | ⟨g, hstep, hrun⟩⟩ :=
    exists_last Inv keep hstart
  · rw [lexemes, hrun] at h
    cases h
  · rw [lexemes, hrun] at h
    cases h
    cases outcome_of_step hstep with
    | fail hblame => exact ⟨t, ht, rfl, hblame⟩

/-- A source with a fault is a source without one and a text behind it that
is blamed with the failure. -/
theorem lexemes_eq_error {s : List Char} {f : Fault}
    (h : lexemes s = .error f) :
    ∃ pre v ls, s = pre ++ v ∧ f.offset = size pre ∧ lexemes pre = .ok ls ∧
      Blames v f.failure := by
  obtain ⟨t, ⟨pre, ht⟩, hoffset, hblame⟩ :=
    Scan.exists_of_lexemes_eq_error h (fun t => ∃ pre, Scan.Reached s pre t)
      (fun _ _ ⟨_, hs⟩ hstep => hs.step hstep) ⟨[], Scan.reached_start s⟩
  exact ⟨pre, t.rest, _, ht.source, hoffset.trans ht.offset, ht.found, hblame⟩

/-- What is diagnosed in a source stands at a character that is no blank.
The text before it has tokens, and the failure is the one that the text
from there on is to be blamed with. -/
theorem tokenize_error (s : String) (file : Option String) (d : Diagnostic)
    (h : tokenize s file = .error d) :
    d.stage = .lex ∧ ∃ pre c v, s.toList = pre ++ c :: v ∧
      d.position.offset.toNat = size pre % UInt32.size ∧
      d.position.file = file.getD unnamedFile ∧
      (∃ ts, tokenize (String.ofList pre) file = .ok ts) ∧
      isBlank c = false ∧ Blames (c :: v) d.failure ∧
      ∀ f, Blames (c :: v) f → f = d.failure := by
  obtain ⟨f, hf, rfl⟩ := tokenize_eq_error_iff.mp h
  obtain ⟨pre, v, ls, hs, hoffset, hls, hblame⟩ := lexemes_eq_error hf
  obtain ⟨c, w, rfl, hblank⟩ := hblame.exists_cons
  have hpre : tokenize (String.ofList pre) file = .ok _ :=
    tokenize_eq_ok_iff.mpr ⟨ls, by rw [String.toList_ofList, hls], rfl⟩
  have hposition : f.offset % UInt32.size = size pre % UInt32.size :=
    congrArg (· % UInt32.size) hoffset
  refine ⟨rfl, pre, c, w, hs, ?_, rfl, ⟨_, hpre⟩, hblank, hblame,
    fun g hg => hg.unique hblame⟩
  rw [Fault.diagnostic, Position.toNat_offset_ofOffset, hposition]

/-- The rest of a malformed number belongs to the failure. -/
theorem tokenize_error_second_point :
    let d : Diagnostic :=
      ⟨.malformedNumber "1.5.2_" .secondPoint, .lex, .ofOffset 2 "shell"⟩
    tokenize "f 1.5.2_;" none = .error d ∧
      ∃ pre c v, "f 1.5.2_;".toList = pre ++ c :: v ∧
        d.position.offset.toNat = size pre % UInt32.size ∧
        Blames (c :: v) d.failure := by
  intro d
  have h : tokenize "f 1.5.2_;" none = .error d := by decide +kernel
  obtain ⟨-, pre, c, v, hs, hoffset, -, -, -, hblame, -⟩ :=
    tokenize_error "f 1.5.2_;" none d h
  exact ⟨h, pre, c, v, hs, hoffset, hblame⟩

end MiniC
