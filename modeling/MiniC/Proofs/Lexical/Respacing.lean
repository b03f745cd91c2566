import MiniC.Proofs.Lexical.Weave

/-!
Changing the blanks of a source.

# Counting pieces

The inked pieces of a text are its lexemes, if it is scanned to the end. A
lexeme that glues to the text behind it is no piece of its own: it is lost
in the first piece there (`length_inked_append`). So texts that are woven
from entries have as many inked pieces as entries if all entries are
`Apart`, and else fewer (`isChain_apart_iff`). Gluing never makes a piece
that could stand for one more lexeme.

# The law

The lexemes of an accepted source may therefore be written down again with
any blanks around them. The kinds stay the same exactly as long as blanks
are left between any two words or numbers in a row (`scan_respaced`).
-/

namespace MiniC

open Text

-- ====================================================== counting pieces

theorem Text.IsPiece.forall_isRunChar {w : List Char} (h : IsPiece w)
    (hc : ∃ c ∈ w, isRunChar c = true) : ∀ c ∈ w, isRunChar c = true := by
  cases h with
  | char hnot =>
    obtain ⟨c, hmem, hrun⟩ := hc
    rw [List.mem_singleton.mp hmem, hnot] at hrun
    cases hrun
  | run _ hrun => exact hrun

/-- Pieces that glue are runs, both of them. -/
theorem Text.forall_isRunChar_of_glues {v w : List Char} (hv : IsPiece v)
    (hw : IsPiece w) (hg : glues v w = true) :
    ∀ c ∈ v ++ w, isRunChar c = true := by
  unfold glues at hg
  rw [Bool.and_eq_true, Option.any_eq_true_iff_get,
    Option.any_eq_true_iff_get] at hg
  obtain ⟨⟨hsv, hrv⟩, hsw, hrw⟩ := hg
  intro c hc
  rcases List.mem_append.mp hc with hmem | hmem
  · exact hv.forall_isRunChar
      ⟨_, List.mem_of_getLast? (Option.some_get hsv).symm, hrv⟩ c hmem
  · exact hw.forall_isRunChar
      ⟨_, List.mem_of_head? (Option.some_get hsw).symm, hrw⟩ c hmem

/-- Text without blanks is not blank. -/
theorem Text.not_blank {w : List Char} (hne : w ≠ [])
    (hw : ∀ c ∈ w, isBlank c = false) : ¬ ∀ c ∈ w, isBlank c = true := by
  intro hblank
  obtain ⟨c, v, rfl⟩ := List.exists_cons_of_ne_nil hne
  have hc := hblank c List.mem_cons_self
  rw [hw c List.mem_cons_self] at hc
  cases hc

/-- A piece in front of a text is one more piece, unless it glues. -/
theorem length_inked_append {w r : List Char} (hw : IsPiece w)
    (hink : ¬ ∀ c ∈ w, isBlank c = true) :
    (inked (w ++ r)).length
      = (inked r).length + if glues w r then 0 else 1 := by
  by_cases hg : glues w r = true
  · -- the first piece behind takes in `w`
    have hr : r ≠ [] := by
      intro hnil
      rw [hnil, glues_nil_right] at hg
      cases hg
    obtain ⟨p, v, rfl, hp, hpv⟩ := exists_piece hr
    rw [glues_append_right v hp.ne_nil] at hg
    have hrun := forall_isRunChar_of_glues hw hp hg
    have hdark : ∀ c ∈ w ++ p, isBlank c = false :=
      fun c hc => isBlank_of_isRunChar (hrun c hc)
    have hdarkp : ∀ c ∈ p, isBlank c = false :=
      fun c hc => hdark c (List.mem_append_right w hc)
    have hwp : IsPiece (w ++ p) :=
      .run (List.append_ne_nil_of_left_ne_nil hw.ne_nil p) hrun
    have hwpv : glues (w ++ p) v = false := by
      rw [glues_append_left w hp.ne_nil, hpv]
    rw [glues_append_right v hp.ne_nil, hg, ← List.append_assoc,
      inked_append_of_ink hwp hwpv (not_blank hwp.ne_nil hdark),
      inked_append_of_ink hp hpv (not_blank hp.ne_nil hdarkp)]
    simp
  · rw [Bool.not_eq_true] at hg
    rw [inked_append_of_ink hw hg hink, hg]
    simp

-- =========================================================== woven texts

theorem Kind.Spells.isPiece {k : Kind} {l : List Char} (h : k.Spells l) :
    IsPiece l := by
  rcases h.cases with ⟨p, rfl⟩ | hw | hn
  · exact .char p.isRunChar_char
  · exact .run h.ne_nil hw.forall_isRunChar
  · exact .run h.ne_nil hn.forall_isRunChar

namespace Entry

variable {e : Entry} {es : List Entry} {tail : List Char}

/-- An entry is one more piece, unless its lexeme glues to what follows. -/
theorem length_inked_weave_cons (e : Entry) (es : List Entry)
    (tail : List Char) :
    (inked (weave (e :: es) ++ tail)).length
      = (inked (weave es ++ tail)).length
        + if glues e.text (weave es ++ tail) then 0 else 1 := by
  rw [weave_cons, List.append_assoc, List.append_assoc,
    inked_append_of_blanks (glues_blanks_left e.blank) e.blank,
    length_inked_append e.spells.isPiece
      (not_blank e.spells.ne_nil e.spells.isBlank_eq_false)]

theorem length_inked_weave_le (htail : ∀ c ∈ tail, isBlank c = true)
    (es : List Entry) : (inked (weave es ++ tail)).length ≤ es.length := by
  induction es with
  | nil =>
    rw [weave_nil, List.nil_append, inked_of_blanks htail]
    simp
  | cons e es ih =>
    rw [length_inked_weave_cons, List.length_cons]
    split <;> omega

/-- Entries are apart exactly if no piece is lost. -/
theorem isChain_apart_iff (htail : ∀ c ∈ tail, isBlank c = true)
    (es : List Entry) :
    es.IsChain Apart ↔ (inked (weave es ++ tail)).length = es.length := by
  induction es with
  | nil =>
    rw [weave_nil, List.nil_append, inked_of_blanks htail]
    simp
  | cons e es ih =>
    have hle := length_inked_weave_le htail es
    rw [List.isChain_cons, ih, length_inked_weave_cons, List.length_cons]
    have hseam : glues e.text (weave es ++ tail) = false ↔
        ∀ f ∈ es.head?, Apart e f := glues_weave_iff htail
    rw [← hseam]
    by_cases hg : glues e.text (weave es ++ tail) = true
    · simp only [hg, if_true]
      constructor
      · intro h
        cases h.1
      · intro h
        omega
    · rw [Bool.not_eq_true] at hg
      simp only [hg, Bool.false_eq_true, if_false]
      constructor
      · intro h
        omega
      · intro h
        exact ⟨trivial, by omega⟩

/-- The same lexemes behind other blanks. -/
theorem exists_withGaps (es : List Entry) (ws : List (List Char))
    (hlen : ws.length = es.length)
    (hws : ∀ w ∈ ws, ∀ c ∈ w, isBlank c = true) :
    ∃ fs : List Entry, fs.map gap = ws ∧ fs.map text = es.map text ∧
      fs.map kind = es.map kind := by
  refine exists_of_forall₂ ?_ ws (hlen.trans (List.length_map kind).symm) hws
  rw [List.forall₂_map_left_iff, List.forall₂_map_right_iff]
  exact List.forall₂_same.mpr fun e _ => e.spells

end Entry

-- =============================================================== slices

/-- The text between two byte offsets, where both fall between
characters. -/
def Text.slice? (s : List Char) (start stop : Nat) : Option (List Char) :=
  if start ≤ stop then
    (dropBytes? start s).bind fun rest =>
      (dropBytes? (stop - start) rest).map fun after =>
        rest.take (rest.length - after.length)
  else none

theorem Text.slice?_append (a l b : List Char) :
    slice? (a ++ l ++ b) (size a) (size a + size l) = some l := by
  unfold slice?
  rw [if_pos (Nat.le_add_right _ _), List.append_assoc, dropBytes?_append,
    Option.bind_some, Nat.add_sub_cancel_left, dropBytes?_append]
  simp

/-- The text of a source that a span covers. -/
def Span.slice? (sp : Span) (source : List Char) : Option (List Char) :=
  Text.slice? source sp.start.offset.toNat sp.stop.offset.toNat

/-- In a source that offsets do not wrap in, the span of a lexeme covers its
text. -/
theorem Entry.map_slice?_placed (file : String) (es : List Entry)
    (pre tail : List Char)
    (hsize : size (pre ++ weave es ++ tail) < UInt32.size) :
    (placed (size pre) es).map
        (fun l => (l.token file).span.slice? (pre ++ weave es ++ tail))
      = es.map (some ∘ text) := by
  induction es generalizing pre with
  | nil => rfl
  | cons e es ih =>
    have hsource : pre ++ weave (e :: es) ++ tail
        = (pre ++ e.gap ++ e.text) ++ weave es ++ tail := by
      simp only [weave_cons, List.append_assoc]
    rw [hsource] at hsize ⊢
    have hrest := ih (pre ++ e.gap ++ e.text) hsize
    have hbound : size (pre ++ e.gap) + size e.text < UInt32.size := by
      simp only [size_append] at hsize ⊢
      omega
    have hstart : size (pre ++ e.gap) < UInt32.size := by omega
    have hslice : Span.slice?
        ((⟨e.kind, e.text, size (pre ++ e.gap)⟩ : Lexeme).token file).span
        (pre ++ e.gap ++ e.text ++ weave es ++ tail) = some e.text := by
      unfold Span.slice? Lexeme.token Span.ofOffset
      rw [Position.toNat_offset_ofOffset, Position.toNat_offset_ofOffset,
        Nat.mod_eq_of_lt hstart, Nat.mod_eq_of_lt hbound, List.append_assoc,
        slice?_append]
    rw [placed, List.map_cons, List.map_cons, ← size_append, hslice,
      ← size_append, ← List.append_assoc, hrest]
    rfl

-- ============================================================== the law

/-- Lexemes written down between separators: `w₀ l₁ w₁ … lₙ wₙ`. -/
def Text.respaced : List (List Char) → List (List Char) → List Char
  | w :: ws, l :: ls => w ++ l ++ respaced ws ls
  | ws, _ => ws.flatten

/-- Between any two words or numbers in a row the separator is not empty. -/
def Text.KeepsApart (ws ls : List (List Char)) : Prop :=
  ∀ (i : Nat) l m w, ls[i]? = some l → ls[i + 1]? = some m →
    ws[i + 1]? = some w → IsWord l ∨ IsNumber l → IsWord m ∨ IsNumber m →
      w ≠ []

theorem Entry.respaced_eq (fs : List Entry) (tail : List Char) :
    respaced (fs.map gap ++ [tail]) (fs.map text) = weave fs ++ tail := by
  induction fs with
  | nil => simp [respaced]
  | cons f fs ih =>
    rw [List.map_cons, List.map_cons, List.cons_append, respaced, ih,
      weave_cons]
    simp only [List.append_assoc]

theorem Entry.keepsApart_iff (fs : List Entry) (tail : List Char) :
    KeepsApart (fs.map gap ++ [tail]) (fs.map text) ↔ fs.IsChain Apart := by
  rw [List.isChain_iff_getElem]
  constructor
  · intro h i hi
    rw [apart_iff]
    refine h i _ _ _ ?_ ?_ ?_
    · rw [List.getElem?_map, List.getElem?_eq_getElem (by omega)]
      rfl
    · rw [List.getElem?_map, List.getElem?_eq_getElem hi]
      rfl
    · rw [List.getElem?_append_left (by simpa using hi), List.getElem?_map,
        List.getElem?_eq_getElem hi]
      rfl
  · intro h i l m w hl hm hw
    rw [List.getElem?_map, Option.map_eq_some_iff] at hl hm
    obtain ⟨e, he, rfl⟩ := hl
    obtain ⟨f, hf, rfl⟩ := hm
    obtain ⟨hi, rfl⟩ := List.getElem?_eq_some_iff.mp hf
    obtain ⟨hi', rfl⟩ := List.getElem?_eq_some_iff.mp he
    rw [List.getElem?_append_left (by simpa using hi), List.getElem?_map,
      List.getElem?_eq_getElem hi] at hw
    cases hw
    exact apart_iff.mp (h i hi)

/-- The kinds of a text that is woven from entries are theirs exactly if
the entries are apart. Otherwise the text has a fault or too few tokens. -/
theorem Entry.scan_weave_iff (fs : List Entry) {tail : List Char}
    (htail : ∀ c ∈ tail, isBlank c = true) :
    (scan (String.ofList (weave fs ++ tail)) = .ok (fs.map kind) ↔
      fs.IsChain Apart) ∧
    (¬ fs.IsChain Apart → ∀ ks,
      scan (String.ofList (weave fs ++ tail)) = .ok ks →
        ks.length < fs.length) := by
  have hscan : ∀ ks, scan (String.ofList (weave fs ++ tail)) = .ok ks →
      ks.length = (inked (weave fs ++ tail)).length := by
    intro ks h
    rw [scan_eq_ok_iff_lexemes, lexemes_eq_ok_iff, String.toList_ofList] at h
    exact h.length_eq
  have hle := length_inked_weave_le htail fs
  have hiff := isChain_apart_iff htail fs
  refine ⟨⟨?_, ?_⟩, ?_⟩
  · intro h
    have hlen := hscan _ h
    rw [List.length_map] at hlen
    exact hiff.mpr hlen.symm
  · intro h
    rw [scan_eq_ok_iff_lexemes, String.toList_ofList]
    exact ⟨_, lexemes_weave h htail, map_kind_placed 0 fs⟩
  · intro h ks hks
    have hlen := hscan ks hks
    rw [hiff] at h
    omega

/-- The lexemes of an accepted source, which are the slices of it at its
spans, have the same kinds between any separators exactly if these keep
words and numbers in a row apart. Otherwise the text has a fault or fewer
tokens. -/
theorem scan_respaced (s : String) (file : Option String) (ts : List Token)
    (h : tokenize s file = .ok ts) (hsize : size s.toList < UInt32.size) :
    ∃ ls : List (List Char),
      ts.map (·.span.slice? s.toList) = ls.map some ∧
      scan s = .ok (ts.map Token.kind) ∧
      ∀ ws : List (List Char), ws.length = ls.length + 1 →
        (∀ w ∈ ws, ∀ c ∈ w, isBlank c = true) →
        (scan (String.ofList (respaced ws ls)) = .ok (ts.map Token.kind) ↔
          KeepsApart ws ls) ∧
        (¬ KeepsApart ws ls →
          (∃ d, scan (String.ofList (respaced ws ls)) = .error d) ∨
          ∃ ks, scan (String.ofList (respaced ws ls)) = .ok ks ∧
            ks.length < ts.length) := by
  obtain ⟨ls, hls, rfl⟩ := tokenize_eq_ok_iff.mp h
  obtain ⟨es, tail, hs, hes, htail⟩ := Entry.exists_weave hls
  rw [hs, Entry.lexemes_weave hes htail] at hls
  cases hls
  have hkinds : ((Entry.placed 0 es).map
      (Lexeme.token (file.getD unnamedFile))).map Token.kind
        = es.map Entry.kind := by
    rw [List.map_map]
    exact Entry.map_kind_placed 0 es
  refine ⟨es.map Entry.text, ?_, ?_, ?_⟩
  · rw [hs] at hsize ⊢
    rw [List.map_map, List.map_map]
    exact Entry.map_slice?_placed _ es [] tail hsize
  · rw [scan_eq_ok_iff_lexemes, hs, Entry.lexemes_weave hes htail]
    exact ⟨_, rfl, by rw [hkinds, Entry.map_kind_placed]⟩
  · intro ws hlen hws
    have hne : ws ≠ [] := by
      intro hnil
      rw [hnil] at hlen
      cases hlen
    have hlast := List.dropLast_append_getLast hne
    obtain ⟨fs, hgap, htext, hkind⟩ := Entry.exists_withGaps es ws.dropLast
      (by simp [hlen]) (fun w hw => hws w (List.dropLast_subset ws hw))
    have hlastblank := hws _ (List.getLast_mem hne)
    rw [← hlast, ← hgap, ← htext, Entry.respaced_eq, Entry.keepsApart_iff,
      hkinds, ← hkind]
    have hlength : fs.length = ((Entry.placed 0 es).map
        (Lexeme.token (file.getD unnamedFile))).length := by
      have := congrArg List.length (hkind.trans hkinds.symm)
      simpa using this
    obtain ⟨hiff, hless⟩ := Entry.scan_weave_iff fs hlastblank
    refine ⟨hiff, fun hnot => ?_⟩
    cases hscan : scan (String.ofList (Entry.weave fs ++ ws.getLast hne)) with
    | error d => exact Or.inl ⟨d, rfl⟩
    | ok ks => exact Or.inr ⟨ks, rfl, hlength ▸ hless hnot ks hscan⟩

/-- The blank between `return` and `2` cannot be left out. -/
theorem scan_respaced_return :
    let ts : List Token :=
      [⟨.keyword .ret, .ofOffset 0 6 "shell"⟩,
        ⟨.constant (.integer 2), .ofOffset 7 1 "shell"⟩,
        ⟨.punctuator .semicolon, .ofOffset 8 1 "shell"⟩]
    let ls := ["return".toList, ['2'], [';']]
    let ws := [['\t'], [], ['\r', '\n'], []]
    tokenize "return 2;" none = .ok ts ∧
      size "return 2;".toList < UInt32.size ∧
      ws.length = ls.length + 1 ∧ (∀ w ∈ ws, ∀ c ∈ w, isBlank c = true) ∧
      ¬ KeepsApart ws ls ∧
      scan (String.ofList (respaced ws ls)) ≠ .ok (ts.map Token.kind) := by
  intro ts ls ws
  have h : tokenize "return 2;" none = .ok ts := by decide +kernel
  have hsize : size "return 2;".toList < UInt32.size := by decide
  have hws : ∀ w ∈ ws, ∀ c ∈ w, isBlank c = true := by
    simp [ws, isBlank]
  have hglued : ¬ KeepsApart ws ls := by
    intro hkeeps
    have hword : IsWord "return".toList := Keyword.isWord .ret
    have hnumber : IsNumber ['2'] :=
      IsDigits.isNumber
        ⟨List.cons_ne_nil _ _, List.forall_mem_singleton.mpr rfl⟩
    exact hkeeps 0 _ _ _ rfl rfl rfl (Or.inl hword) (Or.inr hnumber) rfl
  obtain ⟨ms, hms, -, hlaw⟩ := scan_respaced "return 2;" none ts h hsize
  have hslices : ts.map (·.span.slice? "return 2;".toList) = ls.map some := by
    decide
  have hls : ls = ms := by
    rw [hslices] at hms
    exact List.map_injective_iff.mpr (fun _ _ => Option.some.inj) hms
  rw [← hls] at hlaw
  exact ⟨h, hsize, rfl, hws, hglued, fun hscan =>
    hglued ((hlaw ws rfl hws).1.mp hscan)⟩

end MiniC
