import MiniC.Lexical.Reader
import MiniC.Proofs.Lexical.Cursor
import MiniC.Proofs.Lexical.Failure

/-!
Reading with a cursor never goes astray.

# One round

Where a reader's cursor is in place there is a rest, and all that a round asks
for is told by it (`step_of_rest`); so no round is stopped for being misplaced.
One that goes on leaves the cursor behind a match, which is a beginning of the
rest. There it is in place again, at least one byte further on, with one token
more at most (`Sound.step`).

# All rounds

So the cursor is in place at the head of every round, and the rounds before it
are no more than the bytes (`Rounds.sound`). The loop comes to an end at one of
the heads (`exists_last`).

# The scan

A reader follows the scan over the text alone step by step: as long as the
text ahead of the two is the same, they go on to the same place, fail at the
same place or are at the end together (`Reads.followed`). Hence the tokens of
a source are what a reader finds (`read_eq`), and what is true at the heads of
its rounds is true of how they are found (`rounds_in_place`).
-/

namespace MiniC

open Text

namespace Reader

variable {r t : Reader} {rule : Rule} {rules : List Rule} {s v : List Char}
  {n : Nat}

-- ============================================================= one round

/-- The shape of the rule is at the cursor. -/
def Fits (r : Reader) (rule : Rule) : Prop :=
  ∃ v, r.cursor.rest = .ok v ∧ rule.pattern.fits v = true

theorem obey_ne_misplaced (r : Reader) (text : List Char) (verdict : Verdict)
    (m : Misplaced) : r.obey text verdict ≠ .error (.misplaced m) := by
  cases verdict with
  | skip => rintro ⟨⟩
  | token kind => rintro ⟨⟩
  | fault failure => rintro ⟨⟩

/-- A round, told by the rest. -/
theorem step_of_rest (hrest : r.cursor.rest = .ok v) :
    r.step rules =
      match rules.find? (·.pattern.fits v) with
      | some rule => r.obey (rule.pattern.find v) (rule.verdict v)
      | none => r.fail (.unknownCharacter (String.ofList v.head?.toList)) := by
  rw [step, ask_bind_of_eq_ok hrest]
  cases hfind : rules.find? (·.pattern.fits v) with
  | some rule =>
    have hfits := List.find?_some hfind
    exact follow_of_rest hrest hfits
  | none => exact ask_bind_of_eq_ok (Cursor.current_of_rest hrest) _

theorem step_ne_misplaced (h : r.cursor.InPlace) (rules : List Rule)
    (m : Misplaced) : r.step rules ≠ .error (.misplaced m) := by
  obtain ⟨v, hv⟩ := Cursor.exists_rest_iff.mpr h
  rw [step_of_rest hv]
  split
  · exact obey_ne_misplaced r _ _ m
  · rintro ⟨⟩

theorem follow_ne_misplaced (h : r.Fits rule) (m : Misplaced) :
    r.follow rule ≠ .error (.misplaced m) := by
  obtain ⟨v, hv, hfits⟩ := h
  rw [follow_of_rest hv hfits]
  exact obey_ne_misplaced r _ _ m

/-- A rule that lets a reader go on has moved it by its own match. -/
theorem follow_eq_ok (h : r.Fits rule) (hfollow : r.follow rule = .ok t) :
    ∃ text, r.cursor.matched rule.pattern = .ok text ∧ 1 ≤ size text ∧
      t.cursor = r.cursor.advance (size text) := by
  obtain ⟨v, hv, hfits⟩ := h
  rw [follow_of_rest hv hfits] at hfollow
  refine ⟨rule.pattern.find v, ?_, size_find_pos hfits,
    (obey_eq_ok hfollow).1⟩
  rw [Cursor.matched_of_rest hv, Pattern.text_search]

/-- Where no rule fits, there is a character to blame. -/
theorem exists_current (h : r.cursor.InPlace)
    (hend : r.cursor.atEnd = false) :
    ∃ c, r.cursor.current = .ok (some c) ∧
      ((∀ rule ∈ rules, ¬ r.Fits rule) →
        r.step rules = r.fail (.unknownCharacter (String.ofList [c]))) := by
  obtain ⟨v, hv⟩ := Cursor.exists_rest_iff.mpr h
  have hne : v ≠ [] := by
    intro hnil
    rw [(Cursor.atEnd_iff_of_rest hv).mpr hnil] at hend
    cases hend
  obtain ⟨c, w, rfl⟩ := List.exists_cons_of_ne_nil hne
  refine ⟨c, Cursor.current_of_rest hv, fun hno => ?_⟩
  have hfind : rules.find? (·.pattern.fits (c :: w)) = none :=
    List.find?_eq_none.mpr fun rule hrule hfits => hno rule hrule ⟨_, hv, hfits⟩
  rw [step_of_rest hv, hfind]
  rfl

-- ============================================================ all rounds

/-- `n` rounds lead from one head of the loop to another. -/
inductive Rounds (r : Reader) : Nat → Reader → Prop
  | none : Rounds r 0 r
  | more {n : Nat} {t u : Reader} : Rounds r n t → t.cursor.atEnd = false →
      t.step Rule.all = .ok u → Rounds r (n + 1) u

/-- What every round keeps: the cursor is in place, and the rounds and the
tokens so far are paid for in bytes. -/
structure Sound (s : List Char) (n : Nat) (r : Reader) : Prop where
  source : r.cursor.source = s
  inPlace : r.cursor.InPlace
  rounds : n ≤ r.cursor.offset
  tokens : r.found.length ≤ n

theorem sound_start (source : String) (file : Option String) :
    Sound source.toList 0 (start source file) :=
  ⟨rfl, isBoundary_zero _, Nat.le_refl 0, Nat.le_refl 0⟩

theorem Sound.step (h : Sound s n r) (hstep : r.step rules = .ok t) :
    Sound s (n + 1) t := by
  obtain ⟨v, rule, hv, hfits, hobey⟩ := step_eq_ok hstep
  obtain ⟨hcursor, hfound⟩ := obey_eq_ok hobey
  have hanchored := Pattern.anchored_search (Rule.anchored_pattern rule)
  obtain ⟨-, hplace⟩ := Cursor.text_of_anchored hanchored hv
  rw [Pattern.text_search, ← hcursor] at hplace
  obtain ⟨hsource, hlt⟩ := offset_lt_of_step hstep
  have hrounds := h.rounds
  have htokens := h.tokens
  exact ⟨hsource.trans h.source, hplace, by omega, by omega⟩

theorem Rounds.sound (hr : Sound s 0 r) (h : r.Rounds n t) : Sound s n t := by
  induction h with
  | none => exact hr
  | more _ _ hstep ih => exact ih.step hstep

theorem Sound.offset_le (h : Sound s n r) : r.cursor.offset ≤ size s := by
  rw [← h.source]
  exact h.inPlace.le_size

theorem Sound.rounds_le (h : Sound s n r) : n ≤ size s :=
  Nat.le_trans h.rounds h.offset_le

/-- Short of the end there is a byte left. -/
theorem Sound.rounds_lt (h : Sound s n r) (hend : r.cursor.atEnd = false) :
    n < size s := by
  have hlt : r.cursor.offset < size s := by
    simpa [Cursor.atEnd, h.source] using hend
  have hrounds := h.rounds
  omega

theorem Rounds.cons (hend : r.cursor.atEnd = false)
    (hstep : r.step Rule.all = .ok t) {u : Reader} (h : t.Rounds n u) :
    r.Rounds (n + 1) u := by
  induction h with
  | none => exact .more .none hend hstep
  | more _ hend' hstep' ih => exact .more ih hend' hstep'

theorem run_of_atEnd (hend : r.cursor.atEnd = true) :
    r.run rules = .ok r.found.reverse := by
  rw [run, dif_pos hend]

theorem run_of_step (hend : r.cursor.atEnd = false)
    (hstep : r.step rules = .ok t) : r.run rules = t.run rules := by
  rw [run, dif_neg (Bool.eq_false_iff.mp hend)]
  split
  · next h' => rw [hstep] at h'; cases h'; rfl
  · next h' => rw [hstep] at h'; cases h'

theorem run_of_stop {e : Stop} (hend : r.cursor.atEnd = false)
    (hstep : r.step rules = .error e) : r.run rules = .error e := by
  rw [run, dif_neg (Bool.eq_false_iff.mp hend)]
  split
  · next h' => rw [hstep] at h'; cases h'
  · next h' => rw [hstep] at h'; cases h'; rfl

/-- The loop ends at one of its heads, with the tokens found by then or where a
round stops. -/
theorem exists_last (r : Reader) :
    ∃ n t, r.Rounds n t ∧
      (t.cursor.atEnd = true ∧ r.run Rule.all = .ok t.found.reverse ∨
        t.cursor.atEnd = false ∧
          ∃ e, t.step Rule.all = .error e ∧ r.run Rule.all = .error e) := by
  induction r using run.induct Rule.all with
  | case1 r hend => exact ⟨0, r, .none, Or.inl ⟨hend, run_of_atEnd hend⟩⟩
  | case2 r hend t hstep ih =>
    obtain ⟨n, u, hrounds, hlast⟩ := ih
    rw [Bool.not_eq_true] at hend
    rw [run_of_step hend hstep]
    exact ⟨n + 1, u, hrounds.cons hend hstep, hlast⟩
  | case3 r hend e hstep =>
    rw [Bool.not_eq_true] at hend
    exact ⟨0, r, .none, Or.inr ⟨hend, e, hstep, run_of_stop hend hstep⟩⟩

end Reader

-- ============================================================== the scan

namespace Scan

variable {rules : List Rule} {s t : Scan} {source : List Char}
  {file : String}

/-- The reader at a place of the scan over a source. -/
def reader (source : List Char) (file : String) (s : Scan) : Reader :=
  ⟨⟨source, file, s.offset⟩, s.found.map (Lexeme.token file)⟩

/-- What the scan takes to be ahead is ahead of the reader. -/
def Reads (source : List Char) (file : String) (s : Scan) : Prop :=
  (s.reader source file).cursor.rest = .ok s.rest

theorem Reads.advance (h : s.Reads source file) (rule : Rule) :
    (s.advance (rule.pattern.find s.rest)).Reads source file := by
  unfold Reads at h
  rw [← Pattern.find_append_drop (Rule.anchored_pattern rule) s.rest] at h
  exact Cursor.rest_advance h

/-- How a reader follows a step of the scan. -/
inductive Followed (rules : List Rule) (source : List Char) (file : String)
    (s : Scan) : Next → Prop
  | done : s.rest = [] → Followed rules source file s (.done s.found.reverse)
  | more {t : Scan} : s.rest ≠ [] →
      (s.reader source file).step rules = .ok (t.reader source file) →
      t.Reads source file → Followed rules source file s (.more t)
  | failed {f : Fault} : s.rest ≠ [] →
      (s.reader source file).step rules
        = .error (.diagnosed (f.diagnostic file)) →
      Followed rules source file s (.failed f)

theorem Reads.followed (h : s.Reads source file) :
    s.Followed rules source file (s.step rules) := by
  have hround : (s.reader source file).step rules = _ :=
    Reader.step_of_rest h
  unfold Scan.step
  split
  · next hrest => exact .done hrest
  · next c v hrest =>
    have hne : s.rest ≠ [] := by rw [hrest]; exact List.cons_ne_nil c v
    split
    · next rule hrule =>
      rw [hrule] at hround
      dsimp only [apply] at hround ⊢
      cases hverdict : rule.verdict s.rest with
      | skip =>
        rw [hverdict] at hround
        exact .more hne hround (h.advance rule)
      | token kind =>
        rw [hverdict] at hround
        exact .more hne hround (h.advance rule)
      | fault failure =>
        rw [hverdict] at hround
        exact .failed hne hround
    · next hnone =>
      rw [hnone, hrest] at hround
      exact .failed hne hround

/-- What the scan finds from a place on, a reader reads there. -/
theorem run_reader (h : s.Reads source file) :
    (s.reader source file).run rules =
      match s.run rules with
      | .ok ls => .ok (ls.map (Lexeme.token file))
      | .error f => .error (.diagnosed (f.diagnostic file)) := by
  induction s using step_induction rules with
  | step s ih =>
    have hatEnd := Cursor.atEnd_iff_of_rest h
    have hfollowed : s.Followed rules source file (s.step rules) := h.followed
    generalize hstep : s.step rules = next at hfollowed
    cases hfollowed with
    | done hrest =>
      rw [run_of_done hstep, Reader.run_of_atEnd (hatEnd.mpr hrest)]
      exact congrArg Except.ok List.map_reverse.symm
    | more hrest hround ht =>
      have hgo := Bool.eq_false_iff.mpr (mt hatEnd.mp hrest)
      rw [run_of_more hstep, Reader.run_of_step hgo hround, ih _ hstep ht]
    | failed hrest hround =>
      have hgo := Bool.eq_false_iff.mpr (mt hatEnd.mp hrest)
      rw [run_of_failed hstep, Reader.run_of_stop hgo hround]

end Scan

namespace Reader

/-- A reader reads the tokens of a source, or reports its first fault. -/
theorem read_eq (source : String) (file : Option String) :
    read source file = (tokenize source file).mapError .diagnosed := by
  have hreads : (Scan.start source.toList).Reads source.toList
      (file.getD unnamedFile) := Cursor.rest_eq_ok_iff.mpr ⟨[], rfl, rfl⟩
  have hrun : read source file = _ := Scan.run_reader hreads
  rw [hrun, tokenize_eq, lexemes]
  cases (Scan.start source.toList).run Rule.all with
  | ok ls => rfl
  | error f => rfl

/-- The loop ends with the tokens of a source, or where a round meets the fault
that is diagnosed. -/
theorem exists_end (source : String) (file : Option String) :
    ∃ n r, (start source file).Rounds n r ∧
      (r.cursor.atEnd = true ∧ tokenize source file = .ok r.found.reverse ∨
        r.cursor.atEnd = false ∧
          ∃ d, r.step Rule.all = .error (.diagnosed d) ∧
            tokenize source file = .error d) := by
  obtain ⟨n, r, hrounds, hlast⟩ := exists_last (start source file)
  have hrun : (start source file).run Rule.all = _ := read_eq source file
  rw [hrun] at hlast
  refine ⟨n, r, hrounds, ?_⟩
  cases htokens : tokenize source file with
  | ok ts =>
    rw [htokens] at hlast
    rcases hlast with ⟨hend, hfound⟩ | ⟨-, e, -, hstop⟩
    · cases hfound
      exact Or.inl ⟨hend, rfl⟩
    · cases hstop
  | error d =>
    rw [htokens] at hlast
    rcases hlast with ⟨-, hfound⟩ | ⟨hgo, e, hstep, hstop⟩
    · cases hfound
    · cases hstop
      exact Or.inr ⟨hgo, d, hstep, rfl⟩

/-- No token is made of nothing. -/
theorem length_tokens_le {source : String} {file : Option String}
    {ts : List Token} (h : tokenize source file = .ok ts) :
    ts.length ≤ size source.toList := by
  obtain ⟨n, r, hrounds, ⟨-, hfound⟩ | ⟨-, d, -, hfault⟩⟩ :=
    exists_end source file
  · have hr := hrounds.sound (sound_start source file)
    rw [h] at hfound
    cases hfound
    rw [List.length_reverse]
    exact Nat.le_trans hr.tokens hr.rounds_le
  · rw [h] at hfault
    cases hfault

-- ========================================================== at the heads

/-- What is true at the head of a round, `n` rounds into a source. -/
structure AtHead (s : List Char) (n : Nat) (r : Reader) : Prop where
  boundary : IsBoundary s r.cursor.offset
  offset_le : r.cursor.offset ≤ size s
  rounds_le : n ≤ r.cursor.offset
  tokens_le : r.found.length ≤ n
  answered : ∀ q m, r.cursor.answer q ≠ .misplaced m
  decided : ∀ m, r.step Rule.all ≠ .error (.misplaced m)
  handled : ∀ rule, r.Fits rule → ∀ m, r.follow rule ≠ .error (.misplaced m)
  moved : ∀ rule t, r.Fits rule → r.follow rule = .ok t →
    ∃ text, r.cursor.matched rule.pattern = .ok text ∧ 1 ≤ size text ∧
      t.cursor = r.cursor.advance (size text)
  character : r.cursor.atEnd = false → ∃ c, r.cursor.current = .ok (some c) ∧
    ((∀ rule ∈ Rule.all, ¬ r.Fits rule) →
      r.step Rule.all = r.fail (.unknownCharacter (String.ofList [c])))

theorem Sound.atHead (h : Sound s n r) : r.AtHead s n where
  boundary := h.source ▸ h.inPlace
  offset_le := h.offset_le
  rounds_le := h.rounds
  tokens_le := h.tokens
  answered q m hq := by
    have hout := (Cursor.answer_eq_misplaced_iff q).mp ⟨m, hq⟩
    exact hout.2 h.inPlace
  decided := step_ne_misplaced h.inPlace Rule.all
  handled _ hfits := follow_ne_misplaced hfits
  moved _ _ hfits hfollow := follow_eq_ok hfits hfollow
  character hend := exists_current h.inPlace hend

end Reader

/-- An unknown character is one. -/
theorem exists_char_of_unknownCharacter {source text : String}
    {file : Option String} {d : Diagnostic}
    (h : tokenize source file = .error d)
    (hunknown : d.failure = .unknownCharacter text) :
    ∃ c, text = String.ofList [c] := by
  obtain ⟨f, hf, rfl⟩ := tokenize_eq_error_iff.mp h
  obtain ⟨pre, v, ls, -, -, -, hblame⟩ := lexemes_eq_error hf
  have hfailure : f.failure = .unknownCharacter text := hunknown
  rw [hfailure] at hblame
  cases hblame with
  | @unknown c => exact ⟨c, rfl⟩

/-- For every source, a reader is in place at the head of every round, with no
more rounds behind it than bytes, and no more tokens than rounds. Whatever it
asks there is answered, in the loop or for a rule that fits; a rule that lets
it go on moves it behind the match, which is not empty; and short of the end
there is a character for it to blame. It comes to the end, or to a round that
reports a fault, in as many rounds as there are bytes at most. What it has found
by then are the tokens of the source, or its diagnosis; an unknown character in
that is one character. -/
theorem rounds_in_place (source : String) (file : Option String) :
    let s := source.toList
    let start := Reader.start source file
    (∀ n r, start.Rounds n r → r.AtHead s n) ∧
    (∃ n r, start.Rounds n r ∧
      (r.cursor.atEnd = true ∧ n ≤ size s ∧
          tokenize source file = .ok r.found.reverse ∨
        r.cursor.atEnd = false ∧ n + 1 ≤ size s ∧
          ∃ d, r.step Rule.all = .error (.diagnosed d) ∧
            tokenize source file = .error d)) ∧
    Reader.read source file = (tokenize source file).mapError .diagnosed ∧
    (∀ ts, tokenize source file = .ok ts → ts.length ≤ size s) ∧
    ∀ d text, tokenize source file = .error d →
      d.failure = .unknownCharacter text → ∃ c, text = String.ofList [c] := by
  intro s start
  have hsound : ∀ {n r}, start.Rounds n r → r.Sound s n :=
    fun hrounds => hrounds.sound (Reader.sound_start source file)
  refine ⟨fun n r hrounds => (hsound hrounds).atHead, ?_,
    Reader.read_eq source file, fun ts => Reader.length_tokens_le,
    fun d text => exists_char_of_unknownCharacter⟩
  obtain ⟨n, r, hrounds, ⟨hend, hfound⟩ | ⟨hgo, d, hstep, hfault⟩⟩ :=
    Reader.exists_end source file
  · exact ⟨n, r, hrounds, Or.inl ⟨hend, (hsound hrounds).rounds_le, hfound⟩⟩
  · have hlt := (hsound hrounds).rounds_lt hgo
    exact ⟨n, r, hrounds, Or.inr ⟨hgo, hlt, d, hstep, hfault⟩⟩

/-- A word, a blank, and a letter that no word has. -/
theorem rounds_in_place_accent :
    let start := Reader.start "x é" none
    let x : Token := ⟨.identifier "x", start.cursor.span 1⟩
    let last : Reader := ⟨start.cursor.advance 2, [x]⟩
    (start.Fits .word ∧
      ∃ t text, start.follow .word = .ok t ∧ 1 ≤ size text ∧
        t.cursor = start.cursor.advance (size text)) ∧
    (start.Rounds 2 last ∧ last.AtHead "x é".toList 2 ∧
      last.cursor.atEnd = false ∧ (∀ rule ∈ Rule.all, ¬ last.Fits rule) ∧
      last.step Rule.all = last.fail (.unknownCharacter "é")) ∧
    (∃ d, tokenize "x é" none = .error d ∧
      d.failure = .unknownCharacter "é" ∧ ∃ c, "é" = String.ofList [c]) ∧
    ∃ ts, tokenize "x" none = .ok ts ∧ ts.length ≤ size "x".toList := by
  intro start x last
  obtain ⟨hheads, -, -, -, hunknown⟩ := rounds_in_place "x é" none
  have hfits : start.Fits .word := ⟨"x é".toList, by decide +kernel⟩
  have hfollow : start.follow .word = .ok ⟨start.cursor.advance 1, [x]⟩ := by
    decide +kernel
  obtain ⟨text, -, hpos, hmoved⟩ :=
    (hheads 0 start .none).moved .word _ hfits hfollow
  have hblank : Reader.step Rule.all ⟨start.cursor.advance 1, [x]⟩
      = .ok last := by decide +kernel
  have hword : start.step Rule.all = .ok ⟨start.cursor.advance 1, [x]⟩ := by
    decide +kernel
  have hrounds : start.Rounds 2 last :=
    .more (.more .none (by decide +kernel) hword) (by decide +kernel) hblank
  have hlast := hheads 2 last hrounds
  have hgo : last.cursor.atEnd = false := by decide +kernel
  have hnone : ∀ rule ∈ Rule.all, ¬ last.Fits rule := by
    rintro rule hrule ⟨v, hv, hfits⟩
    have hrest : last.cursor.rest = .ok ['é'] := by decide +kernel
    rw [hrest] at hv
    cases hv
    exact absurd hfits (by revert rule; decide +kernel)
  obtain ⟨c, hcurrent, hfail⟩ := hlast.character hgo
  have hc : last.cursor.current = .ok (some 'é') := by decide +kernel
  rw [hc] at hcurrent
  cases hcurrent
  have hfault : tokenize "x é" none
      = .error ⟨.unknownCharacter "é", .lex, last.cursor.position⟩ := by
    decide +kernel
  obtain ⟨-, -, -, hcount, -⟩ := rounds_in_place "x" none
  have htokens : tokenize "x" none = .ok [x] := by decide +kernel
  exact ⟨⟨hfits, _, text, hfollow, hpos, hmoved⟩,
    ⟨hrounds, hlast, hgo, hnone, hfail hnone⟩,
    ⟨_, hfault, rfl, hunknown _ "é" hfault rfl⟩,
    ⟨_, htokens, hcount _ htokens⟩⟩

end MiniC
