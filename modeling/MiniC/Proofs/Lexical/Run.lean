import MiniC.Proofs.Lexical.Step

/-!
Runs of the scan, as sequences of steps.

# Induction

`step_induction` is the induction along a run. `exists_last` packs the use
of it for invariants: what every step keeps holds at the place where the
run ends, be it with lexemes or with a fault.

# Runs from other places

A run depends on its place only by adding to it. The run over a text `n`
bytes into a source, with some lexemes found before, has the result of the
run over the text alone, moved by `n` and put after these lexemes
(`run_eq_after`). With that, whole runs can be told by `lexemes` alone.
-/

namespace MiniC

open Text

namespace Scan

variable {rules : List Rule} {s t : Scan}

-- ====================================================== steps of a run

theorem run_of_more (h : s.step rules = .more t) :
    s.run rules = t.run rules := by
  rw [run]
  split
  · next h' => rw [h] at h'; cases h'; rfl
  · next h' => rw [h] at h'; cases h'
  · next h' => rw [h] at h'; cases h'

theorem run_of_done {ls : List Lexeme} (h : s.step rules = .done ls) :
    s.run rules = .ok ls := by
  rw [run]
  split
  · next h' => rw [h] at h'; cases h'
  · next h' => rw [h] at h'; cases h'; rfl
  · next h' => rw [h] at h'; cases h'

theorem run_of_failed {f : Fault} (h : s.step rules = .failed f) :
    s.run rules = .error f := by
  rw [run]
  split
  · next h' => rw [h] at h'; cases h'
  · next h' => rw [h] at h'; cases h'
  · next h' => rw [h] at h'; cases h'; rfl

/-- Induction along the steps of a run: what holds of a place if it holds of
the next holds of every place. -/
@[elab_as_elim]
theorem step_induction (rules : List Rule) {motive : Scan → Prop}
    (step : ∀ s, (∀ t, s.step rules = .more t → motive t) → motive s)
    (s : Scan) : motive s :=
  step s fun t _h => step_induction rules step t
termination_by s.rest.length
decreasing_by exact length_rest_of_step _h

/-- What every step keeps holds where the run ends. -/
theorem exists_last (Inv : Scan → Prop)
    (keep : ∀ s t, Inv s → s.step rules = .more t → Inv t) (h : Inv s) :
    ∃ t, Inv t ∧
      ((∃ ls, t.step rules = .done ls ∧ s.run rules = .ok ls) ∨
        ∃ f, t.step rules = .failed f ∧ s.run rules = .error f) := by
  induction s using step_induction rules with
  | step s ih =>
    cases hstep : s.step rules with
    | more t =>
      obtain ⟨u, hu, hlast⟩ := ih t hstep (keep s t h hstep)
      refine ⟨u, hu, ?_⟩
      rwa [run_of_more hstep]
    | done ls => exact ⟨s, h, Or.inl ⟨ls, hstep, run_of_done hstep⟩⟩
    | failed f => exact ⟨s, h, Or.inr ⟨f, hstep, run_of_failed hstep⟩⟩

end Scan

-- ============================================================== moving

/-- A lexeme of a text that stands `n` bytes into a source. -/
def Lexeme.shift (n : Nat) (l : Lexeme) : Lexeme :=
  { l with start := n + l.start }

/-- A fault of a text that stands `n` bytes into a source. -/
def Fault.shift (n : Nat) (f : Fault) : Fault :=
  { f with offset := n + f.offset }

/-- The result of a text that stands `n` bytes into a source, after the
lexemes `pre`. -/
def resultAfter (n : Nat) (pre : List Lexeme) :
    Except Fault (List Lexeme) → Except Fault (List Lexeme)
  | .ok ls => .ok (pre ++ ls.map (Lexeme.shift n))
  | .error f => .error (f.shift n)

theorem resultAfter_eq_ok_iff {n : Nat} {pre ls : List Lexeme}
    {result : Except Fault (List Lexeme)} :
    resultAfter n pre result = .ok ls ↔
      ∃ ms, result = .ok ms ∧ ls = pre ++ ms.map (Lexeme.shift n) := by
  cases result with
  | error f => simp [resultAfter]
  | ok ms => simp [resultAfter, eq_comm]

/-- Moving keeps the kinds. -/
theorem resultAfter_kinds_iff {n : Nat} {pre : List Lexeme} {ks : List Kind}
    {result : Except Fault (List Lexeme)} :
    (∃ ls, resultAfter n pre result = .ok ls ∧ ls.map Lexeme.kind = ks) ↔
      ∃ ms, result = .ok ms ∧
        pre.map Lexeme.kind ++ ms.map Lexeme.kind = ks := by
  cases result with
  | error f => simp [resultAfter]
  | ok ms =>
    have hkind : Lexeme.kind ∘ Lexeme.shift n = Lexeme.kind := rfl
    simp [resultAfter, hkind]

namespace Scan

variable {rules : List Rule}

/-- A place of a text that stands `n` bytes into a source, after the lexemes
`pre`, the latest first. -/
def shift (n : Nat) (pre : List Lexeme) (s : Scan) : Scan :=
  ⟨n + s.offset, s.rest, s.found.map (Lexeme.shift n) ++ pre⟩

/-- What a step of a text leads to when it stands there. -/
def Next.shift (n : Nat) (pre : List Lexeme) : Next → Next
  | .more s => .more (s.shift n pre)
  | .done ls => .done (pre.reverse ++ ls.map (Lexeme.shift n))
  | .failed f => .failed (f.shift n)

@[simp] theorem rest_shift (n : Nat) (pre : List Lexeme) (s : Scan) :
    (s.shift n pre).rest = s.rest := rfl

theorem advance_shift (n : Nat) (pre : List Lexeme) (s : Scan)
    (text : List Char) :
    (s.shift n pre).advance text = (s.advance text).shift n pre := by
  simp only [advance, shift, Nat.add_assoc]

theorem push_shift (n : Nat) (pre : List Lexeme) (s : Scan) (k : Kind)
    (text : List Char) :
    (s.shift n pre).push k text = (s.push k text).shift n pre := by
  simp only [push, advance, shift, Nat.add_assoc, List.map_cons,
    List.cons_append, Lexeme.shift]

theorem apply_shift (n : Nat) (pre : List Lexeme) (s : Scan) (r : Rule) :
    (s.shift n pre).apply r = (s.apply r).shift n pre := by
  unfold apply
  rw [rest_shift]
  dsimp only
  cases r.verdict s.rest with
  | skip => exact congrArg Next.more (advance_shift n pre s _)
  | token k => exact congrArg Next.more (push_shift n pre s k _)
  | fault f => rfl

theorem step_shift (n : Nat) (pre : List Lexeme) (s : Scan) :
    (s.shift n pre).step rules = (s.step rules).shift n pre := by
  unfold step
  rw [rest_shift]
  cases s.rest with
  | nil =>
    dsimp only [shift, Next.shift]
    rw [List.reverse_append, List.map_reverse]
  | cons c v =>
    dsimp only
    cases rules.find? (·.pattern.fits (c :: v)) with
    | some r => exact apply_shift n pre s r
    | none => rfl

theorem run_shift (n : Nat) (pre : List Lexeme) (s : Scan) :
    (s.shift n pre).run rules = resultAfter n pre.reverse (s.run rules) := by
  induction s using step_induction rules with
  | step s ih =>
    have hstep : (s.shift n pre).step rules = (s.step rules).shift n pre :=
      step_shift n pre s
    cases h : s.step rules with
    | more t =>
      rw [h] at hstep
      rw [run_of_more hstep, run_of_more h, ih t h]
    | done ls =>
      rw [h] at hstep
      rw [run_of_done hstep, run_of_done h, resultAfter]
    | failed f =>
      rw [h] at hstep
      rw [run_of_failed hstep, run_of_failed h, resultAfter]

/-- Every run is told by the run over its text alone. -/
theorem run_eq_after (n : Nat) (v : List Char) (pre : List Lexeme) :
    (⟨n, v, pre⟩ : Scan).run rules
      = resultAfter n pre.reverse ((start v).run rules) :=
  run_shift n pre (start v)

end Scan

end MiniC
