import MiniC.Proofs.Lexical.Weave

/-!
The order of spans, in sources of any length.

# True places

The lexemes of a source stand in order: none is empty, and each starts where
the one before it stops or further on (`between_of_lexemes`). That is by
induction over the entries that the source is woven from.

# Stored places

What is stored of an offset is what it has gone on its last lap of 2³² bytes,
and the number of laps is lost. Two offsets that are less than a lap apart are
stored in their order exactly if they are on the same lap
(`Position.offset_lt_iff`, `Position.offset_le_iff`). On the first lap all
spans are in order, and in a longer source a span, or two neighbours, are out
of order where a new lap begins between them (`tokenize_ordered`).
-/

namespace MiniC

open Text

-- ============================================================ true places

/-- Where the text of a lexeme stops. -/
def Lexeme.stop (l : Lexeme) : Nat :=
  l.start + size l.text

/-- The lexemes stand between two offsets, none of them empty and each behind
the one before it. -/
structure Lexeme.Between (first last : Nat) (ls : List Lexeme) : Prop where
  first_le : ∀ l ∈ ls, first ≤ l.start
  proper : ∀ l ∈ ls, l.start < l.stop
  le_last : ∀ l ∈ ls, l.stop ≤ last
  behind : ls.IsChain fun l m => l.stop ≤ m.start

theorem Kind.Spells.size_pos {k : Kind} {l : List Char} (h : k.Spells l) :
    0 < size l :=
  Nat.lt_of_lt_of_le (List.length_pos_iff.mpr h.ne_nil) (length_le_size l)

theorem Entry.between_placed (n : Nat) (es : List Entry) :
    Lexeme.Between n (n + size (weave es)) (placed n es) := by
  induction es generalizing n with
  | nil =>
    exact ⟨List.forall_mem_nil _, List.forall_mem_nil _,
      List.forall_mem_nil _, .nil⟩
  | cons e es ih =>
    have hrest := ih (n + size (e.gap ++ e.text))
    have hpos := e.spells.size_pos
    have hgap : size (e.gap ++ e.text) = size e.gap + size e.text :=
      size_append e.gap e.text
    have hweave : size (weave (e :: es))
        = size e.gap + size e.text + size (weave es) := by
      rw [weave_cons, size_append, hgap]
    rw [hgap] at hrest
    rw [placed, hweave, hgap]
    constructor
    · refine List.forall_mem_cons.mpr ⟨Nat.le_add_right n _, fun l hl => ?_⟩
      have := hrest.first_le l hl
      omega
    · refine List.forall_mem_cons.mpr ⟨?_, hrest.proper⟩
      exact Nat.lt_add_of_pos_right hpos
    · refine List.forall_mem_cons.mpr ⟨?_, fun l hl => ?_⟩
      · dsimp only [Lexeme.stop]
        omega
      · have := hrest.le_last l hl
        omega
    · refine List.isChain_cons.mpr ⟨fun l hl => ?_, hrest.behind⟩
      have := hrest.first_le l (List.mem_of_mem_head? hl)
      dsimp only [Lexeme.stop]
      omega

/-- The lexemes of a source stand in it, one behind the other. -/
theorem between_of_lexemes {s : List Char} {ls : List Lexeme}
    (h : lexemes s = .ok ls) : Lexeme.Between 0 (size s) ls := by
  obtain ⟨es, tail, rfl, hes, htail⟩ := Entry.exists_weave h
  rw [Entry.lexemes_weave hes htail] at h
  cases h
  have hplaced := Entry.between_placed 0 es
  refine ⟨hplaced.first_le, hplaced.proper, fun l hl => ?_, hplaced.behind⟩
  have := hplaced.le_last l hl
  rw [size_append]
  omega

-- ========================================================== stored places

/-- How many laps of 2³² bytes are behind an offset. -/
def Position.laps (offset : Nat) : Nat :=
  offset / UInt32.size

/-- Offsets that are less than a lap apart are stored in their order on one
lap only. -/
theorem Position.offset_lt_iff {a b : Nat} (hlt : a < b)
    (hnear : b - a < UInt32.size) (file : String) :
    (ofOffset a file).offset < (ofOffset b file).offset
      ↔ laps a = laps b := by
  rw [UInt32.lt_iff_toNat_lt, toNat_offset_ofOffset, toNat_offset_ofOffset]
  unfold laps
  simp only [UInt32.size] at hnear ⊢
  omega

theorem Position.offset_le_iff {a b : Nat} (hle : a ≤ b)
    (hnear : b - a < UInt32.size) (file : String) :
    (ofOffset a file).offset ≤ (ofOffset b file).offset
      ↔ laps a = laps b := by
  rw [UInt32.le_iff_toNat_le, toNat_offset_ofOffset, toNat_offset_ofOffset]
  unfold laps
  simp only [UInt32.size] at hnear ⊢
  omega

theorem Position.laps_of_lt {a : Nat} (h : a < UInt32.size) : laps a = 0 :=
  Nat.div_eq_of_lt h

/-- Spans as stored are in order: each starts before it stops, and stops
before the next one starts. -/
structure Token.Ordered (ts : List Token) : Prop where
  proper : ∀ t ∈ ts, t.span.start.offset < t.span.stop.offset
  behind : ts.IsChain fun t u => t.span.stop.offset ≤ u.span.start.offset

/-- On the first lap, stored spans are in the order of the lexemes. -/
theorem Lexeme.Between.ordered {n last : Nat} {ls : List Lexeme}
    (h : Lexeme.Between n last ls) (hlast : last < UInt32.size)
    (file : String) : Token.Ordered (ls.map (Lexeme.token file)) := by
  have hstop : ∀ l ∈ ls, l.stop < UInt32.size :=
    fun l hl => Nat.lt_of_le_of_lt (h.le_last l hl) hlast
  constructor
  · intro t ht
    obtain ⟨l, hl, rfl⟩ := List.mem_map.mp ht
    have hlt := h.proper l hl
    have hbound := hstop l hl
    refine (Position.offset_lt_iff hlt (by omega) file).mpr ?_
    rw [Position.laps_of_lt hbound, Position.laps_of_lt (by omega)]
  · rw [List.isChain_map]
    refine h.behind.imp_of_mem_imp fun l m hl hm hle => ?_
    have hbound := h.proper m hm
    have hbound' := hstop m hm
    refine (Position.offset_le_iff hle (by omega) file).mpr ?_
    rw [Position.laps_of_lt (by omega), Position.laps_of_lt (by omega)]

/-- The tokens of a source are those of its lexemes, which stand in it one
behind the other. In a source of less than 2³² bytes their stored spans are in this
order too. In any other, a span that is shorter than a lap is in order if it
starts and stops on one lap, and two neighbours that are less than a lap apart
are if the one stops on the lap that the other starts on, and only then. -/
theorem tokenize_ordered (s : String) (file : Option String)
    (ts : List Token) (h : tokenize s file = .ok ts) :
    ∃ ls, lexemes s.toList = .ok ls ∧
      ts = ls.map (Lexeme.token (file.getD unnamedFile)) ∧
      Lexeme.Between 0 (size s.toList) ls ∧
      (size s.toList < UInt32.size → Token.Ordered ts) ∧
      (∀ l ∈ ls, l.stop - l.start < UInt32.size →
        ((l.token (file.getD unnamedFile)).span.start.offset
            < (l.token (file.getD unnamedFile)).span.stop.offset
          ↔ Position.laps l.start = Position.laps l.stop)) ∧
      ls.IsChain fun l m => m.start - l.stop < UInt32.size →
        ((l.token (file.getD unnamedFile)).span.stop.offset
            ≤ (m.token (file.getD unnamedFile)).span.start.offset
          ↔ Position.laps l.stop = Position.laps m.start) := by
  obtain ⟨ls, hls, rfl⟩ := tokenize_eq_ok_iff.mp h
  have hbetween := between_of_lexemes hls
  refine ⟨ls, hls, rfl, hbetween, fun hsize => hbetween.ordered hsize _, ?_, ?_⟩
  · intro l hl hnear
    exact Position.offset_lt_iff (hbetween.proper l hl) hnear _
  · exact hbetween.behind.imp fun l m hle hnear =>
      Position.offset_le_iff hle hnear _

/-- Three tokens on the first lap. -/
theorem tokenize_ordered_return :
    let s := "return\n x1;"
    let ts : List Token :=
      [⟨.keyword .ret, .ofOffset 0 6 "a.c"⟩,
        ⟨.identifier "x1", .ofOffset 8 2 "a.c"⟩,
        ⟨.punctuator .semicolon, .ofOffset 10 1 "a.c"⟩]
    tokenize s (some "a.c") = .ok ts ∧ size s.toList < UInt32.size ∧
      Token.Ordered ts := by
  intro s ts
  have h : tokenize s (some "a.c") = .ok ts := by decide +kernel
  have hsize : size s.toList < UInt32.size := by decide
  obtain ⟨ls, -, -, -, hordered, -⟩ := tokenize_ordered s (some "a.c") ts h
  exact ⟨h, hsize, hordered hsize⟩

-- ========================================================== the next lap

theorem Text.size_replicate_space (n : Nat) :
    size (List.replicate n ' ') = n := by
  induction n with
  | zero => rfl
  | succ n ih =>
    rw [List.replicate_succ, size_cons, ih]
    exact Nat.add_comm 1 n

/-- One lexeme behind any number of spaces. -/
theorem tokenize_spaces_append {k : Kind} {l : List Char} (hk : k.Spells l)
    (n : Nat) (file : Option String) :
    tokenize (String.ofList (List.replicate n ' ' ++ l)) file
      = .ok [Lexeme.token (file.getD unnamedFile) ⟨k, l, n⟩] := by
  have hblank : ∀ c ∈ List.replicate n ' ', isBlank c = true := by
    intro c hc
    rw [List.eq_of_mem_replicate hc]
    rfl
  let e : Entry := ⟨List.replicate n ' ', k, l, hblank, hk⟩
  have hlexemes : lexemes (Entry.weave [e] ++ []) = .ok (Entry.placed 0 [e]) :=
    Entry.lexemes_weave (.singleton e) (List.forall_mem_nil _)
  have htext : Entry.weave [e] ++ [] = List.replicate n ' ' ++ l := by
    simp only [Entry.weave_cons, Entry.weave_nil, List.append_nil, e]
  have hplaced : Entry.placed 0 [e] = [⟨k, l, n⟩] := by
    simp only [Entry.placed, Nat.zero_add, size_replicate_space, e]
  rw [htext, hplaced] at hlexemes
  exact tokenize_eq_ok_iff.mpr
    ⟨_, by rw [String.toList_ofList, hlexemes], rfl⟩

/-- The last byte of the first lap is a name. Its span starts there and stops
at the start of the next lap, so that it is stored the wrong way round. -/
theorem span_backwards_at_lap :
    let s := String.ofList (List.replicate 4294967295 ' ' ++ ['x'])
    let t : Token :=
      ⟨.identifier "x", ⟨⟨4294967295, "shell"⟩, ⟨0, "shell"⟩⟩⟩
    tokenize s none = .ok [t] ∧ ¬ Token.Ordered [t] := by
  intro s t
  have hword : IsWord ['x'] := ⟨'x', [], rfl, rfl, List.forall_mem_nil _⟩
  have hname : (Kind.identifier "x").Spells ['x'] :=
    .identifier hword (by rintro (_ | _ | _) <;> decide)
  constructor
  · exact tokenize_spaces_append hname 4294967295 none
  · intro h
    exact absurd (h.proper t List.mem_cons_self) (by decide)

end MiniC
