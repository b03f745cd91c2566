import MiniC.Proofs.Lexical.Acceptance

/-!
Sources put together from lexemes and blanks.

# Entries

An `Entry` is a lexeme with the blanks before it, and a source is woven
from entries (`weave`) and some blanks behind the last of them. Two entries
are `Apart` if a scan can tell them from one: with no blanks in between,
their lexemes must not glue.

# Both ways

Entries that are apart are scanned as they are woven, each where its lexeme
stands (`lexemes_weave`). In turn every source that is scanned to the end
is woven from such entries (`exists_weave`). So what is true of all texts
that entries weave is true of all sources without a fault.
-/

namespace MiniC

open Text

/-- A lexeme and the blanks before it. -/
structure Entry where
  gap : List Char
  kind : Kind
  text : List Char
  blank : ∀ c ∈ gap, isBlank c = true
  spells : kind.Spells text

namespace Entry

/-- The text of entries, one after the other. -/
def weave (es : List Entry) : List Char :=
  es.flatMap fun e => e.gap ++ e.text

/-- The text of entries, from the first lexeme to the last. -/
def stretch : List Entry → List Char
  | [] => []
  | e :: es => e.text ++ weave es

/-- The lexeme of an entry behind other blanks. -/
def withGap (e : Entry) (w : List Char) (hw : ∀ c ∈ w, isBlank c = true) :
    Entry :=
  { e with gap := w, blank := hw }

/-- Entries that may follow each other: with no blanks in between, their
lexemes must not glue. -/
def Apart (e f : Entry) : Prop :=
  f.gap = [] → glues e.text f.text = false

/-- The lexemes of entries that are woven `n` bytes into a source. -/
def placed (n : Nat) : List Entry → List Lexeme
  | [] => []
  | e :: es =>
    ⟨e.kind, e.text, n + size e.gap⟩
      :: placed (n + size (e.gap ++ e.text)) es

variable {e : Entry} {es : List Entry} {tail : List Char}

@[simp] theorem weave_nil : weave [] = [] := rfl

@[simp] theorem weave_cons (e : Entry) (es : List Entry) :
    weave (e :: es) = e.gap ++ e.text ++ weave es := rfl

theorem weave_append (es fs : List Entry) :
    weave (es ++ fs) = weave es ++ weave fs :=
  List.flatMap_append

theorem stretch_isInfix {fs : List Entry} (h : fs <:+: es) :
    stretch fs <:+: weave es := by
  obtain ⟨before, after, rfl⟩ := h
  rw [weave_append, weave_append]
  cases fs with
  | nil => exact List.nil_infix
  | cons f fs =>
    refine ⟨weave before ++ f.gap, weave after, ?_⟩
    simp only [stretch, weave_cons, List.append_assoc]

/-- The blanks before the first entry keep nothing apart. -/
theorem isChain_withGap {w : List Char} (hw : ∀ c ∈ w, isBlank c = true) :
    (e.withGap w hw :: es).IsChain Apart ↔ (e :: es).IsChain Apart := by
  rw [List.isChain_cons, List.isChain_cons]
  exact Iff.rfl

/-- Two lexemes need blanks in between if they are words or numbers. -/
theorem apart_iff {e f : Entry} :
    Apart e f ↔ (IsWord e.text ∨ IsNumber e.text →
      IsWord f.text ∨ IsNumber f.text → f.gap ≠ []) := by
  constructor
  · intro h he hf hgap
    have hglues := glues_of_runs e.spells.ne_nil f.spells.ne_nil
      (he.elim IsWord.forall_isRunChar IsNumber.forall_isRunChar)
      (hf.elim IsWord.forall_isRunChar IsNumber.forall_isRunChar)
    rw [h hgap] at hglues
    cases hglues
  · intro h hgap
    rcases e.spells.cases with ⟨p, hp⟩ | he
    · refine glues_of_getLast fun c hc => ?_
      rw [hp] at hc
      cases hc
      exact p.isRunChar_char
    · rcases f.spells.cases with ⟨p, hp⟩ | hf
      · refine glues_of_head fun c hc => ?_
        rw [hp] at hc
        cases hc
        exact p.isRunChar_char
      · exact absurd hgap (h he hf)

/-- Texts that spell kinds, as entries behind given blanks. -/
theorem exists_of_forall₂ {ks : List Kind} {ls : List (List Char)}
    (h : List.Forall₂ Kind.Spells ks ls) (ws : List (List Char))
    (hlen : ws.length = ks.length)
    (hws : ∀ w ∈ ws, ∀ c ∈ w, isBlank c = true) :
    ∃ es : List Entry, es.map gap = ws ∧ es.map text = ls ∧
      es.map kind = ks := by
  induction h generalizing ws with
  | nil => exact ⟨[], by simpa [eq_comm] using hlen, rfl, rfl⟩
  | cons hk _ ih =>
    cases ws with
    | nil => cases hlen
    | cons w ws =>
      obtain ⟨hw, hws⟩ := List.forall_mem_cons.mp hws
      obtain ⟨es, hgap, htext, hkind⟩ := ih ws (Nat.succ.inj hlen) hws
      refine ⟨⟨w, _, _, hw, hk⟩ :: es, ?_, ?_, ?_⟩
      · simp [hgap]
      · simp [htext]
      · simp [hkind]

-- ============================================================== placing

theorem map_kind_placed (n : Nat) (es : List Entry) :
    (placed n es).map Lexeme.kind = es.map kind := by
  induction es generalizing n with
  | nil => rfl
  | cons e es ih => exact congrArg (e.kind :: ·) (ih _)

theorem map_shift_placed (m n : Nat) (es : List Entry) :
    (placed n es).map (Lexeme.shift m) = placed (m + n) es := by
  induction es generalizing n with
  | nil => rfl
  | cons e es ih =>
    rw [placed, List.map_cons, ih, placed, Lexeme.shift, Nat.add_assoc,
      Nat.add_assoc]

/-- Each lexeme stands behind what is woven before it. -/
theorem getElem?_placed (n i : Nat) (es : List Entry) :
    (placed n es)[i]? = es[i]?.map fun e =>
      ⟨e.kind, e.text, n + size (weave (es.take i) ++ e.gap)⟩ := by
  induction es generalizing n i with
  | nil => rfl
  | cons e es ih =>
    cases i with
    | zero => rfl
    | succ i =>
      rw [placed, List.getElem?_cons_succ, ih, List.getElem?_cons_succ,
        List.take_succ_cons, weave_cons]
      simp only [size_append, Nat.add_assoc]

-- ============================================================= scanning

/-- A text glues to what is woven behind it exactly if it glues to the
first lexeme there, with no blanks before that. -/
theorem glues_weave_iff {l : List Char}
    (htail : ∀ c ∈ tail, isBlank c = true) :
    glues l (weave es ++ tail) = false ↔
      ∀ f ∈ es.head?, f.gap = [] → glues l f.text = false := by
  cases es with
  | nil =>
    rw [weave_nil, List.nil_append, glues_blanks_right htail]
    simp
  | cons f es =>
    rw [List.head?_cons, weave_cons, List.append_assoc, List.append_assoc]
    simp only [Option.mem_some_iff, forall_eq']
    by_cases hgap : f.gap = []
    · rw [hgap, List.nil_append, glues_append_right _ f.spells.ne_nil]
      exact ⟨fun h _ => h, fun h => h rfl⟩
    · rw [glues_append_right _ hgap, glues_blanks_right f.blank]
      exact ⟨fun _ h => absurd h hgap, fun _ => rfl⟩

/-- Entries that are apart are scanned as they are woven. -/
theorem lexemes_weave (hes : es.IsChain Apart)
    (htail : ∀ c ∈ tail, isBlank c = true) :
    lexemes (weave es ++ tail) = .ok (placed 0 es) := by
  induction es with
  | nil => exact lexemes_of_blanks htail
  | cons e es ih =>
    obtain ⟨hnext, hes⟩ := List.isChain_cons.mp hes
    rw [weave_cons, List.append_assoc, List.append_assoc,
      lexemes_append (glues_blanks_left e.blank), lexemes_of_blanks e.blank,
      lexemes_append ((glues_weave_iff htail).mpr hnext),
      lexemes_of_spells e.spells, ih hes]
    simp only [resultAfter, List.nil_append, List.map_cons, map_shift_placed,
      List.singleton_append, placed, Lexeme.shift, size_append, Nat.add_zero,
      Nat.zero_add]

/-- What is scanned to the end is woven from entries that are apart. -/
theorem exists_weave {s : List Char} {ls : List Lexeme}
    (h : lexemes s = .ok ls) :
    ∃ es tail, s = weave es ++ tail ∧ es.IsChain Apart ∧
      ∀ c ∈ tail, isBlank c = true := by
  induction s using piece_induction generalizing ls with
  | nil => exact ⟨[], [], rfl, .nil, fun c hc => by cases hc⟩
  | piece w r hw hg ih =>
    rw [lexemes_append hg] at h
    cases hlw : lexemes w with
    | error f =>
      rw [hlw] at h
      cases h
    | ok ps =>
      rw [hlw] at h
      obtain ⟨ms, hms, -⟩ := resultAfter_eq_ok_iff.mp h
      obtain ⟨es, tail, rfl, hes, htail⟩ := ih hms
      rcases spells_of_lexemes hw hlw with hblank | ⟨k, hk⟩
      · -- blanks go to the gap of the next lexeme, or behind the last
        cases es with
        | nil => exact ⟨[], w ++ tail, rfl, .nil,
            List.forall_mem_append.mpr ⟨hblank, htail⟩⟩
        | cons f es =>
          have hgap := List.forall_mem_append.mpr ⟨hblank, f.blank⟩
          refine ⟨f.withGap (w ++ f.gap) hgap :: es, tail, ?_,
            (isChain_withGap hgap).mpr hes, htail⟩
          simp only [weave_cons, withGap, List.append_assoc]
      · have hnext := (glues_weave_iff htail).mp hg
        refine ⟨⟨[], k, w, List.forall_mem_nil _, hk⟩ :: es, tail, ?_,
          List.isChain_cons.mpr ⟨hnext, hes⟩, htail⟩
        rw [weave_cons, List.nil_append, List.append_assoc]

/-- Entries that are apart are scanned with their kinds wherever the blanks
before the first of them are left out. -/
theorem scan_stretch (hes : es.IsChain Apart) :
    scan (String.ofList (stretch es)) = .ok (es.map kind) := by
  rw [scan_eq_ok_iff_lexemes, String.toList_ofList]
  cases es with
  | nil => exact ⟨[], lexemes_of_blanks (List.forall_mem_nil _), rfl⟩
  | cons e es =>
    have hnil : ∀ c ∈ [], isBlank c = true := List.forall_mem_nil _
    have h := lexemes_weave ((isChain_withGap hnil).mpr hes) hnil
    rw [List.append_nil] at h
    exact ⟨_, h, map_kind_placed 0 _⟩

end Entry

end MiniC
