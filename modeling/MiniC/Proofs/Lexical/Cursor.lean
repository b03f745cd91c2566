import MiniC.Cursor
import MiniC.Proofs.Text.Boundary

/-!
The answers of a cursor.

A cursor is in place where its offset is a boundary of the source, and there
alone it has a rest (`rest_eq_ok_iff`). Whatever reads the source reads that
rest, so it is misplaced together with it, and nothing else ever is
(`answer_eq_misplaced_iff`). No query but an advance moves the cursor, and
advances add up, so that the answer to a query depends on nothing but the sum
of the advances before it (`getElem?_answers`).

With that, what is seen ahead, where a span ends and where a match leads are
all told by the cursor further on (`answers_agree`).
-/

namespace MiniC

open Text

namespace Cursor

variable {c : Cursor} {v : List Char} {n k : Nat}

/-- The cursor is between two characters of its source, or at an end. -/
def InPlace (c : Cursor) : Prop :=
  IsBoundary c.source c.offset

-- ============================================================== the rest

theorem rest_eq_ok_iff :
    c.rest = .ok v ↔ ∃ pre, c.source = pre ++ v ∧ c.offset = size pre := by
  rw [← dropBytes?_eq_some_iff]
  unfold rest
  cases dropBytes? c.offset c.source with
  | none => simp
  | some s => simp

theorem exists_rest_iff : (∃ v, c.rest = .ok v) ↔ c.InPlace := by
  simp only [rest_eq_ok_iff]
  exact exists_comm

theorem inPlace_of_rest (h : c.rest = .ok v) : c.InPlace :=
  exists_rest_iff.mp ⟨v, h⟩

/-- A cursor is moved along its rest. -/
theorem rest_advance {t : List Char} (h : c.rest = .ok (v ++ t)) :
    (c.advance (size v)).rest = .ok t := by
  obtain ⟨pre, hsource, hoffset⟩ := rest_eq_ok_iff.mp h
  refine rest_eq_ok_iff.mpr ⟨pre ++ v, ?_, ?_⟩
  · rw [List.append_assoc]
    exact hsource
  · rw [size_append, ← hoffset]
    rfl

theorem atEnd_iff_of_rest (h : c.rest = .ok v) : c.atEnd = true ↔ v = [] := by
  obtain ⟨pre, hsource, hoffset⟩ := rest_eq_ok_iff.mp h
  unfold atEnd
  rw [decide_eq_true_iff, hsource, hoffset, size_append]
  constructor
  · intro hle
    have hlen := length_le_size v
    exact List.length_eq_zero_iff.mp (by omega)
  · rintro rfl
    exact Nat.le_refl _

end Cursor

-- ============================================================ misplaced

/-- Whether a query reads the source. -/
def Query.reads : Query → Bool
  | .current | .peek _ | .rest | .matched _ => true
  | .advance _ | .atEnd | .position | .span _ => false

/-- How far a query moves the cursor. -/
def Query.width : Query → Nat
  | .advance n => n
  | _ => 0

namespace Cursor

variable {c : Cursor}

theorem exists_error_of_not_inPlace (h : ¬ c.InPlace) :
    ∃ m, c.rest = .error m := by
  cases hrest : c.rest with
  | ok v => exact absurd (inPlace_of_rest hrest) h
  | error m => exact ⟨m, rfl⟩

theorem answer_eq_misplaced_iff (q : Query) :
    (∃ m, c.answer q = .misplaced m) ↔ q.reads = true ∧ ¬ c.InPlace := by
  constructor
  · rintro ⟨m, h⟩
    have hplace : ∀ v, c.rest ≠ .ok v := by
      rintro v hv
      cases q with
      | current => rw [answer, current_of_rest hv] at h; cases h
      | peek k => rw [answer, peek_of_rest hv] at h; cases h
      | rest => rw [answer, hv] at h; cases h
      | matched r => rw [answer, matched_of_rest hv] at h; cases h
      | _ => cases h
    refine ⟨?_, fun hin => ?_⟩
    · cases q with
      | current | peek | rest | matched => rfl
      | _ => cases h
    · obtain ⟨v, hv⟩ := exists_rest_iff.mpr hin
      exact hplace v hv
  · rintro ⟨hreads, hout⟩
    obtain ⟨m, hm⟩ := exists_error_of_not_inPlace hout
    refine ⟨m, ?_⟩
    cases q with
    | current => rw [answer, current, hm]; rfl
    | peek k => rw [answer, peek, hm]; rfl
    | rest => rw [answer, hm]; rfl
    | matched r => rw [answer, matched, hm]; rfl
    | _ => cases hreads

-- ============================================================= sequences

theorem after_eq_advance (q : Query) : c.after q = c.advance q.width := by
  cases q <;> rfl

theorem advance_advance (m n : Nat) :
    (c.advance m).advance n = c.advance (m + n) := by
  simp only [advance, Nat.add_assoc]

/-- How far queries move the cursor in all. -/
def advanced : List Query → Nat
  | [] => 0
  | q :: qs => q.width + advanced qs

/-- A query is answered from where the advances before it have led. -/
theorem getElem?_answers (pre : List Query) (q : Query) (post : List Query) :
    (c.answers (pre ++ q :: post))[pre.length]?
      = some ((c.advance (advanced pre)).answer q) := by
  induction pre generalizing c with
  | nil => rfl
  | cons p pre ih =>
    rw [List.cons_append, answers, List.length_cons, List.getElem?_cons_succ,
      ih, after_eq_advance, advance_advance]
    rfl

-- ============================================================ agreement

theorem inPlace_start_advance {source : String} {file : Option String}
    {n : Nat} :
    ((start source file).advance n).InPlace ↔ IsBoundary source.toList n := by
  unfold InPlace advance start
  rw [Nat.zero_add]

/-- Looking ahead is looking from further on, as long as that is in place. -/
theorem peek_of_inPlace {k : Nat} (h : c.InPlace) :
    ((c.advance k).InPlace → c.peek k = (c.advance k).current) ∧
      (¬ (c.advance k).InPlace → c.peek k = .ok none) := by
  obtain ⟨v, hv⟩ := exists_rest_iff.mpr h
  obtain ⟨pre, hsource, hoffset⟩ := rest_eq_ok_iff.mp hv
  have hahead : (c.advance k).InPlace ↔ IsBoundary v k := by
    unfold InPlace advance
    rw [hsource, hoffset, isBoundary_append_iff]
  rw [hahead]
  constructor
  · rintro ⟨p, u, rfl, rfl⟩
    rw [peek_size_of_rest hv, current_of_rest (rest_advance hv)]
  · intro hout
    rw [peek_of_rest hv, dropBytes?_eq_none_iff.mpr hout]
    rfl

/-- A span ends where an advance by its length leads. -/
theorem span_eq (c : Cursor) (k : Nat) :
    c.span k = ⟨c.position, (c.advance k).position⟩ := rfl

/-- What an anchored search finds is a beginning of the rest, and a way to go
on. -/
theorem text_of_anchored {r : Search} (hr : r.Anchored) {v : List Char}
    (h : c.rest = .ok v) :
    r.text v <+: v ∧ (c.advance (size (r.text v))).InPlace := by
  have hbegin := hr.text_isPrefix v
  refine ⟨hbegin, ?_⟩
  obtain ⟨t, ht⟩ := hbegin
  rw [← ht] at h
  exact inPlace_of_rest (rest_advance h)

end Cursor

/-- How the answers of one cursor agree, for every source and every sequence
of queries. A query is answered from the sum of the advances before it. From
there it is misplaced exactly if it reads and the place is past the end or
inside a character. In place, there is no character exactly at the end, what is
seen ahead is the character there, and a search is answered with what it finds
in the rest, which for an anchored one is a beginning behind which the cursor
is in place again. Wherever it is, a span
reaches from its position to the one that an advance would lead to. -/
theorem answers_agree (source : String) (file : Option String) :
    let s := source.toList
    let c : Nat → Cursor := (Cursor.start source file).advance
    (∀ pre q post,
      ((Cursor.start source file).answers (pre ++ q :: post))[pre.length]?
        = some ((c (Cursor.advanced pre)).answer q)) ∧
    (∀ n q, (∃ m, (c n).answer q = .misplaced m) ↔
      q.reads = true ∧ (size s < n ∨ InsideCharacter s n)) ∧
    (∀ n, IsBoundary s n →
      ((c n).answer .current = .char none ↔
        (c n).answer .atEnd = .flag true) ∧
      (∀ k, IsBoundary s (n + k) →
        (c n).answer (.peek k) = (c (n + k)).answer .current) ∧
      (∀ k, ¬ IsBoundary s (n + k) →
        (c n).answer (.peek k) = .char none) ∧
      ∃ rest, (c n).answer .rest = .text rest ∧
        ∀ r : Search, (c n).answer (.matched r) = .text (r.text rest) ∧
          (r.Anchored → r.text rest <+: rest ∧
            IsBoundary s (n + size (r.text rest)))) ∧
    ∀ n k, ∃ p q, (c n).answer .position = .place p ∧
      (c (n + k)).answer .position = .place q ∧
      (c n).answer (.span k) = .span ⟨p, q⟩ := by
  intro s c
  have hplace : ∀ {n}, (c n).InPlace ↔ IsBoundary s n :=
    Cursor.inPlace_start_advance
  have hadd : ∀ n k, (c n).advance k = c (n + k) :=
    fun n k => Cursor.advance_advance n k
  refine ⟨Cursor.getElem?_answers, ?_, ?_, ?_⟩
  · intro n q
    rw [Cursor.answer_eq_misplaced_iff, hplace, not_isBoundary_iff]
  · intro n hn
    have hin := hplace.mpr hn
    obtain ⟨v, hv⟩ := Cursor.exists_rest_iff.mpr hin
    refine ⟨?_, fun k hk => ?_, fun k hk => ?_, v, ?_,
      fun r => ⟨?_, fun hr => ?_⟩⟩
    · have hend := Cursor.atEnd_iff_of_rest hv
      rw [Cursor.answer, Cursor.current_of_rest hv, Cursor.answer]
      simp only [Answer.ofExcept, Answer.char.injEq, Answer.flag.injEq, hend,
        List.head?_eq_none_iff]
    · have hpeek := (Cursor.peek_of_inPlace (k := k) hin).1
      rw [hadd, hplace] at hpeek
      rw [Cursor.answer, Cursor.answer, hpeek hk]
    · have hpeek := (Cursor.peek_of_inPlace (k := k) hin).2
      rw [hadd, hplace] at hpeek
      rw [Cursor.answer, hpeek hk]
      rfl
    · rw [Cursor.answer, hv]
      rfl
    · rw [Cursor.answer, Cursor.matched_of_rest hv]
      rfl
    · obtain ⟨hbegin, hon⟩ := Cursor.text_of_anchored hr hv
      rw [hadd, hplace] at hon
      exact ⟨hbegin, hon⟩
  · intro n k
    refine ⟨(c n).position, (c (n + k)).position, rfl, rfl, ?_⟩
    rw [Cursor.answer, Cursor.span_eq, hadd]

/-- A character of two bytes, a number behind it, and a place past the end. -/
theorem answers_agree_accent :
    let s := "é1.5".toList
    let c : Nat → Cursor := (Cursor.start "é1.5" none).advance
    IsBoundary s 2 ∧ IsBoundary s (2 + 1) ∧ ¬ IsBoundary s (2 + 4) ∧
      Pattern.number.search.Anchored ∧
      (c 2).answer (.peek 1) = .char (some '.') ∧
      (c 2).answer (.peek 4) = .char none ∧
      (c 2).answer (.matched Pattern.number) = .text "1.5".toList ∧
      IsBoundary s (2 + 3) := by
  intro s c
  have htwo : IsBoundary s 2 := ⟨['é'], "1.5".toList, by decide, by decide⟩
  have hthree : IsBoundary s (2 + 1) :=
    ⟨"é1".toList, ".5".toList, by decide +kernel, by decide +kernel⟩
  have hpast : ¬ IsBoundary s (2 + 4) := by
    intro h
    exact absurd h.le_size (by decide +kernel)
  have hnumber : Pattern.number.search.Anchored :=
    Pattern.anchored_search rfl
  obtain ⟨-, -, hagree, -⟩ := answers_agree "é1.5" none
  obtain ⟨-, hpeek, hnone, rest, hrest, hmatched⟩ := hagree 2 htwo
  obtain ⟨htext, hanchored⟩ := hmatched Pattern.number
  obtain ⟨-, hon⟩ := hanchored hnumber
  have hfound : (c 2).answer (.matched Pattern.number) = .text "1.5".toList := by
    decide +kernel
  have hlength : size (Pattern.number.search.text rest) = 3 := by
    have heq := htext.symm.trans hfound
    rw [Answer.text.inj heq]
    decide +kernel
  rw [hlength] at hon
  refine ⟨htwo, hthree, hpast, hnumber, ?_, hnone 4 hpast, hfound, hon⟩
  rw [hpeek 1 hthree]
  decide +kernel

end MiniC
