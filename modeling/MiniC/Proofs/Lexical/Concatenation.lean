import MiniC.Proofs.Lexical.Run

/-!
Scanning is compositional where texts do not glue.

# Locality of a step

A step looks ahead: past a number by one character, past a point for a
digit, over all of a malformed run for its failure. None of this reaches
over a seam that does not glue, so a step at a place stays what it was when
such a text is put behind the source (`step_append`). Only blanks go on
over a seam, but skipping them in two steps leads to the same place as in
one (`run_blanks`).

# The law

By induction along the run (`run_append`), the scan of two texts in a row
is the scan of the first and then, moved by the size of the first, the scan
of the second (`lexemes_append`). `tokenize_append` says it of tokens and
diagnoses.
-/

namespace MiniC

open Text

-- ============================================================= one step

namespace Rule

variable {r : Rule} {s t : List Char}

/-- What a rule finds at a place does not change with a text put behind,
unless all that is left there are blanks. -/
theorem find_append (hg : glues s t = false)
    (hs : ∃ c ∈ s, isBlank c = false) :
    r.pattern.find (s ++ t) = r.pattern.find s := by
  obtain ⟨c, hc, hnot⟩ := hs
  have hne : s ≠ [] := List.ne_nil_of_mem hc
  by_cases hr : r = .blanks
  · subst hr
    have hstop : (s.takeWhile isBlank).length ≠ s.length := by
      intro hlen
      have hall := (List.takeWhile_prefix isBlank).eq_of_length hlen
      have hblank := List.mem_takeWhile_imp (hall.symm ▸ hc)
      rw [hnot] at hblank
      cases hblank
    exact List.takeWhile_append.trans (if_neg hstop)
  · refine Pattern.find_append_of_glues (anchored_pattern r) ?_ hg hne
    cases r with
    | blanks => exact absurd rfl hr
    | _ => intro h; cases h

theorem malformation?_of_stop {l : List Char} {x : Option Char}
    (h : ∀ c ∈ x, isRunChar c = false) : malformation? l x = none := by
  cases x with
  | none => rfl
  | some c =>
    have hc := h c rfl
    rw [isRunChar, Bool.or_eq_false_iff, beq_eq_false_iff_ne] at hc
    rw [malformation?, if_neg hc.2, if_neg (by simp [hc.1])]

theorem malformation?_append {l v : List Char} (hl : IsNumber l)
    (hg : glues (l ++ v) t = false) :
    malformation? l (v ++ t).head? = malformation? l v.head? := by
  cases v with
  | nil =>
    rw [List.append_nil] at hg
    have hne : l ≠ [] := Pattern.Matches.ne_nil (p := .number) hl
    rw [List.nil_append,
      malformation?_of_stop (head_of_glues hg hne hl.forall_isRunChar)]
    rfl
  | cons c v => rfl

theorem verdict_append (hfits : r.pattern.fits s = true)
    (hg : glues s t = false) (hs : ∃ c ∈ s, isBlank c = false) :
    r.verdict (s ++ t) = r.verdict s := by
  have hne : s ≠ [] := List.ne_nil_of_mem hs.choose_spec.1
  have hmal : malformedNumber (s ++ t) = malformedNumber s := by
    have hrun : Pattern.run.find (s ++ t) = Pattern.run.find s :=
      Pattern.find_append_of_glues rfl (by decide) hg hne
    funext reason
    rw [malformedNumber, malformedNumber, hrun]
  have hlong := Pattern.longest_find (anchored_pattern r) hfits
  obtain ⟨v, hv⟩ := hlong.isPrefix
  unfold verdict
  dsimp only
  rw [find_append hg hs]
  generalize r.pattern.find s = l at hlong hv
  cases r with
  | number =>
    subst hv
    rw [List.append_assoc, List.drop_left, List.drop_left, ← List.append_assoc]
    rw [malformation?_append hlong.holds hg, hmal]
  | leadingPoint => rw [hmal]
  | _ => rfl

end Rule

namespace Scan

/-- The same place, with a text put behind the source. -/
def append (s : Scan) (t : List Char) : Scan :=
  { s with rest := s.rest ++ t }

/-- Where a step leads with a text put behind the source. -/
def Next.append (t : List Char) : Next → Next
  | .more s => .more (s.append t)
  | next => next

variable {s : Scan} {t : List Char}

@[simp] theorem rest_append (s : Scan) (t : List Char) :
    (s.append t).rest = s.rest ++ t := rfl

theorem apply_append {r : Rule} (hfits : r.pattern.fits s.rest = true)
    (hg : glues s.rest t = false) (hs : ∃ c ∈ s.rest, isBlank c = false) :
    (s.append t).apply r = (s.apply r).append t := by
  have hpre := Pattern.find_isPrefix (Rule.anchored_pattern r) s.rest
  have hadv : (s.append t).advance (r.pattern.find s.rest)
      = (s.advance (r.pattern.find s.rest)).append t := by
    dsimp only [advance, append]
    rw [List.drop_append_of_le_length hpre.length_le]
  unfold apply
  rw [rest_append, Rule.verdict_append hfits hg hs, Rule.find_append hg hs]
  dsimp only
  cases r.verdict s.rest with
  | skip => exact congrArg Next.more hadv
  | token k =>
    dsimp only [push, Next.append]
    rw [hadv]
    rfl
  | fault f => rfl

/-- A step does not change with a text put behind, unless all that is left
are blanks. -/
theorem step_append {rules : List Rule} (hg : glues s.rest t = false)
    (hs : ∃ c ∈ s.rest, isBlank c = false) :
    (s.append t).step rules = (s.step rules).append t := by
  obtain ⟨c, v, hrest⟩ :=
    List.exists_cons_of_ne_nil (List.ne_nil_of_mem hs.choose_spec.1)
  have hfits : ∀ r : Rule,
      r.pattern.fits (s.append t).rest = r.pattern.fits s.rest := by
    intro r
    rw [Pattern.fits, Pattern.fits, rest_append, Rule.find_append hg hs]
  by_cases hex : ∃ r ∈ rules, r.pattern.fits s.rest = true
  · obtain ⟨r, hr, hfit⟩ := hex
    rw [step_of_fits hr (by rw [hfits, hfit]), step_of_fits hr hfit,
      apply_append hfit hg hs]
  · have hno : ∀ r ∈ rules, r.pattern.fits s.rest = false :=
      fun r hr => Bool.eq_false_iff.mpr fun h => hex ⟨r, hr, h⟩
    have hrest' : (s.append t).rest = c :: (v ++ t) := by
      rw [rest_append, hrest, List.cons_append]
    rw [step_of_not_fits hrest hno,
      step_of_not_fits hrest' fun r hr => by rw [hfits, hno r hr]]
    rfl

-- =============================================================== blanks

theorem run_takeWhile_isBlank (n : Nat) (v : List Char) (found : List Lexeme) :
    (⟨n, v, found⟩ : Scan).run Rule.all
      = (⟨n + size (v.takeWhile isBlank), v.dropWhile isBlank, found⟩ :
          Scan).run Rule.all := by
  have happ := List.takeWhile_append_dropWhile (p := isBlank) (l := v)
  by_cases hnil : v.takeWhile isBlank = []
  · rw [hnil, List.nil_append] at happ
    rw [hnil, happ, size_nil, Nat.add_zero]
  · have hfits : Rule.blanks.pattern.fits v = true := Pattern.fits_iff.mpr hnil
    refine run_of_more ?_
    rw [step_of_fits (Rule.mem_all .blanks) hfits]
    exact congrArg Next.more (advance_of_append happ.symm)

/-- Blanks may be skipped in parts. -/
theorem run_blanks {w : List Char} (hw : ∀ c ∈ w, isBlank c = true) (n : Nat)
    (v : List Char) (found : List Lexeme) :
    (⟨n, w ++ v, found⟩ : Scan).run Rule.all
      = (⟨n + size w, v, found⟩ : Scan).run Rule.all := by
  rw [run_takeWhile_isBlank n, run_takeWhile_isBlank (n + size w),
    List.takeWhile_append_of_pos hw, List.dropWhile_append_of_pos hw,
    size_append, Nat.add_assoc]

theorem run_of_blanks {s : Scan} (h : ∀ c ∈ s.rest, isBlank c = true) :
    s.run Rule.all = .ok s.found.reverse := by
  have hrun := run_blanks h s.offset [] s.found
  rw [List.append_nil] at hrun
  exact hrun.trans (run_of_done (step_of_rest_nil rfl))

-- ============================================================= the run

/-- A run over two texts that do not glue goes on with the second where the
run over the first ends, or fails as it does. -/
theorem run_append (t : List Char) (s : Scan) (hg : glues s.rest t = false) :
    (s.append t).run Rule.all
      = match s.run Rule.all with
        | .ok ls =>
          (⟨s.offset + size s.rest, t, ls.reverse⟩ : Scan).run Rule.all
        | .error f => .error f := by
  induction s using step_induction Rule.all with
  | step s ih =>
    by_cases hs : ∃ c ∈ s.rest, isBlank c = false
    · have happ : (s.append t).step Rule.all = (s.step Rule.all).append t :=
        step_append hg hs
      cases hstep : s.step Rule.all with
      | more u =>
        rw [hstep] at happ
        have hrest : ∃ w, s.rest = w ++ u.rest
            ∧ u.offset = s.offset + size w := by
          cases outcome_of_step hstep with
          | skip h _ _ => exact ⟨_, h, rfl⟩
          | read h _ _ => exact ⟨_, h, rfl⟩
        obtain ⟨w, hw, hoff⟩ := hrest
        have hsize : s.offset + size s.rest = u.offset + size u.rest := by
          rw [hw, size_append, hoff, Nat.add_assoc]
        rw [run_of_more happ, run_of_more hstep,
          ih u hstep (glues_of_append (hw ▸ hg)), hsize]
      | done ls =>
        cases outcome_of_step hstep with
        | done hnil =>
          obtain ⟨c, hc, -⟩ := hs
          rw [hnil] at hc
          cases hc
      | failed f =>
        rw [hstep] at happ
        rw [run_of_failed happ, run_of_failed hstep]
    · -- all that is left of the first text are blanks
      have hw : ∀ c ∈ s.rest, isBlank c = true := by
        intro c hc
        cases hb : isBlank c with
        | true => rfl
        | false => exact absurd ⟨c, hc, hb⟩ hs
      rw [run_of_blanks hw]
      dsimp only
      rw [List.reverse_reverse]
      exact run_blanks hw s.offset t s.found

end Scan

-- ============================================================== the law

/-- Two texts that do not glue are scanned one after the other. -/
theorem lexemes_append {s t : List Char} (hg : glues s t = false) :
    lexemes (s ++ t)
      = match lexemes s with
        | .ok ls => resultAfter (size s) ls (lexemes t)
        | .error f => .error f := by
  have h := Scan.run_append t (Scan.start s) hg
  unfold lexemes
  refine h.trans ?_
  cases (Scan.start s).run Rule.all with
  | error f => rfl
  | ok ls =>
    dsimp only
    rw [Scan.run_eq_after, List.reverse_reverse, Scan.start, Nat.zero_add]

-- ================================================= tokens and diagnoses

/-- The position `n` bytes further on, where offsets wrap at 2³². -/
def Position.advance (n : Nat) (p : Position) : Position :=
  ⟨p.offset + UInt32.ofNat n, p.file⟩

/-- The span `n` bytes further on. -/
def Span.advance (n : Nat) (sp : Span) : Span :=
  ⟨sp.start.advance n, sp.stop.advance n⟩

/-- The token `n` bytes further on. -/
def Token.advance (n : Nat) (t : Token) : Token :=
  ⟨t.kind, t.span.advance n⟩

/-- The diagnosis of a place `n` bytes further on. -/
def Diagnostic.advance (n : Nat) (d : Diagnostic) : Diagnostic :=
  { d with position := d.position.advance n }

theorem Position.advance_ofOffset (n k : Nat) (file : String) :
    (ofOffset k file).advance n = ofOffset (n + k) file := by
  rw [advance, ofOffset, ofOffset, UInt32.ofNat_add, UInt32.add_comm]

theorem Lexeme.token_shift (n : Nat) (file : String) (l : Lexeme) :
    (l.shift n).token file = (l.token file).advance n := by
  simp only [token, shift, Token.advance, Span.advance, Span.ofOffset,
    Position.advance_ofOffset, Nat.add_assoc]

theorem Fault.diagnostic_shift (n : Nat) (file : String) (f : Fault) :
    (f.shift n).diagnostic file = (f.diagnostic file).advance n := by
  simp only [diagnostic, shift, Diagnostic.advance, Position.advance_ofOffset]

theorem tokenize_eq (s : String) (file : Option String) :
    tokenize s file
      = match lexemes s.toList with
        | .ok ls => .ok (ls.map (Lexeme.token (file.getD unnamedFile)))
        | .error f => .error (f.diagnostic (file.getD unnamedFile)) := rfl

theorem tokenize_eq_ok_iff {s : String} {file : Option String}
    {ts : List Token} :
    tokenize s file = .ok ts ↔ ∃ ls, lexemes s.toList = .ok ls ∧
      ts = ls.map (Lexeme.token (file.getD unnamedFile)) := by
  rw [tokenize_eq]
  cases lexemes s.toList with
  | error f => simp
  | ok ls => simp [eq_comm]

theorem tokenize_eq_error_iff {s : String} {file : Option String}
    {d : Diagnostic} :
    tokenize s file = .error d ↔ ∃ f, lexemes s.toList = .error f ∧
      d = f.diagnostic (file.getD unnamedFile) := by
  rw [tokenize_eq]
  cases lexemes s.toList with
  | error f => simp [eq_comm]
  | ok ls => simp

/-- Where two texts do not glue, the first fault of both in a row is that of
the first or, moved by the size of the first, that of the second, and the
tokens of both are those of the first and, so moved, those of the second. -/
theorem tokenize_append (s t : String) (file : Option String)
    (hg : glues s.toList t.toList = false) :
    tokenize (s ++ t) file
      = match tokenize s file, tokenize t file with
        | .error e, _ => .error e
        | .ok _, .error e => .error (e.advance (size s.toList))
        | .ok a, .ok b => .ok (a ++ b.map (Token.advance (size s.toList))) := by
  rw [tokenize_eq, tokenize_eq s, tokenize_eq t, String.toList_append,
    lexemes_append hg]
  cases lexemes s.toList with
  | error f => rfl
  | ok ls =>
    cases lexemes t.toList with
    | error f =>
      dsimp only [resultAfter]
      rw [Fault.diagnostic_shift]
    | ok ms =>
      dsimp only [resultAfter]
      rw [List.map_append, List.map_map, List.map_map]
      congr 3
      funext l
      exact Lexeme.token_shift _ _ l

/-- The number at the end of the first text is looked past over the seam, to a
second text with tokens and to one with a fault. -/
theorem tokenize_append_semicolon :
    glues "x1 2".toList ";y".toList = false ∧
      tokenize ("x1 2" ++ ";y") (some "a.c")
        = .ok [⟨.identifier "x1", .ofOffset 0 2 "a.c"⟩,
            ⟨.constant (.integer 2), .ofOffset 3 1 "a.c"⟩,
            ⟨.punctuator .semicolon, .ofOffset 4 1 "a.c"⟩,
            ⟨.identifier "y", .ofOffset 5 1 "a.c"⟩] ∧
      glues "x1 2".toList ";.5".toList = false ∧
      tokenize ("x1 2" ++ ";.5") none
        = .error ⟨.malformedNumber ".5" .missingWhole, .lex,
            .ofOffset 5 "shell"⟩ := by
  have hok : glues "x1 2".toList ";y".toList = false := by decide
  have herror : glues "x1 2".toList ";.5".toList = false := by decide
  refine ⟨hok, ?_, herror, ?_⟩
  · rw [tokenize_append "x1 2" ";y" (some "a.c") hok]
    decide +kernel
  · rw [tokenize_append "x1 2" ";.5" none herror]
    decide +kernel

end MiniC
