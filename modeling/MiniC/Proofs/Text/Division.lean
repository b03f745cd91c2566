import MiniC.Proofs.Text.Line

/-!
A text as its lines, and byte offsets as places in them.

# Bytes

A text is stored as the bytes of its characters (`bytes`). The byte of a line
feed belongs to no other character (`feed_not_mem_utf8EncodeChar`), so the
line feeds before an offset may be counted among the bytes, also where the
offset falls inside a character (`count_feed_take_bytes`).

# The division

`Line.Holds` says what the line of an offset is: a stretch of the text from
behind one line feed up to the next, or to the end. That leaves no choice. A
line that holds an offset is the one that the walk from line to line finds
there (`Line.Holds.lineAt?_eq`), and every offset inside the text is held by
one (`Line.exists_holds`). A later offset is held further on, in a later line
or in the same (`Line.Holds.lt`).
-/

namespace MiniC.Text

-- ================================================================= bytes

/-- The bytes of a text in UTF-8. -/
def bytes (s : List Char) : List UInt8 :=
  s.flatMap String.utf8EncodeChar

/-- The byte of a line feed. -/
def feedByte : UInt8 :=
  10

variable {s t before after : List Char}

theorem bytes_cons (c : Char) (s : List Char) :
    bytes (c :: s) = String.utf8EncodeChar c ++ bytes s :=
  List.flatMap_cons

theorem bytes_append (s t : List Char) :
    bytes (s ++ t) = bytes s ++ bytes t :=
  List.flatMap_append

theorem length_bytes (s : List Char) : (bytes s).length = size s := by
  induction s with
  | nil => rfl
  | cons c s ih =>
    rw [bytes_cons, List.length_append, String.length_utf8EncodeChar, ih,
      size_cons]

/-- No other character has the byte of a line feed: where one takes several
bytes, all of them are 128 and above. -/
theorem feed_not_mem_utf8EncodeChar {c : Char} (hc : c ≠ '\n') :
    feedByte ∉ String.utf8EncodeChar c := by
  have hval : c.val.toNat ≠ 10 := by
    intro h
    exact hc (Char.ext (UInt32.toNat_inj.mp h))
  have hbyte : ∀ n, n < 256 → n ≠ 10 → feedByte ≠ UInt8.ofNat n := by
    intro n hn hne h
    have hnat := congrArg UInt8.toNat h
    rw [UInt8.toNat_ofNat_of_lt' hn] at hnat
    exact hne hnat.symm
  unfold String.utf8EncodeChar
  dsimp only
  split
  · simp only [List.mem_singleton]
    exact hbyte _ (by omega) hval
  split
  · simp only [List.mem_cons, List.not_mem_nil, or_false, not_or]
    exact ⟨hbyte _ (by omega) (by omega), hbyte _ (by omega) (by omega)⟩
  split
  · simp only [List.mem_cons, List.not_mem_nil, or_false, not_or]
    exact ⟨hbyte _ (by omega) (by omega), hbyte _ (by omega) (by omega),
      hbyte _ (by omega) (by omega)⟩
  · simp only [List.mem_cons, List.not_mem_nil, or_false, not_or]
    exact ⟨hbyte _ (by omega) (by omega), hbyte _ (by omega) (by omega),
      hbyte _ (by omega) (by omega), hbyte _ (by omega) (by omega)⟩

theorem count_feed_bytes (s : List Char) :
    (bytes s).count feedByte = s.count '\n' := by
  induction s with
  | nil => rfl
  | cons c s ih =>
    rw [bytes_cons, List.count_append, ih]
    by_cases hc : c = '\n'
    · subst hc
      rw [List.count_cons_self, Nat.add_comm]
      rfl
    · rw [List.count_cons_of_ne hc,
        List.count_eq_zero.mpr (feed_not_mem_utf8EncodeChar hc), Nat.zero_add]

/-- The line feeds before an offset inside a character are those before the
character. -/
theorem count_feed_take_bytes {c : Char} {k : Nat} (hk : k < c.utf8Size)
    (pre v : List Char) :
    ((bytes (pre ++ c :: v)).take (size pre + k)).count feedByte
      = pre.count '\n' := by
  have hcut : (bytes (pre ++ c :: v)).take (size pre + k)
      = bytes pre ++ (String.utf8EncodeChar c).take k := by
    rw [bytes_append, bytes_cons, ← length_bytes, List.take_length_add_append,
      List.take_append_of_le_length]
    rw [String.length_utf8EncodeChar]
    omega
  have hnone : ((String.utf8EncodeChar c).take k).count feedByte = 0 := by
    rw [List.count_eq_zero]
    intro hmem
    by_cases hc : c = '\n'
    · subst hc
      obtain rfl : k = 0 := Nat.lt_one_iff.mp hk
      cases hmem
    · exact feed_not_mem_utf8EncodeChar hc (List.mem_of_mem_take hmem)
  rw [hcut, List.count_append, count_feed_bytes, hnone, Nat.add_zero]

-- ============================================================= the lines

/-- Nothing, or text up to a line feed. -/
def WholeLines (s : List Char) : Prop :=
  ∀ c ∈ s.getLast?, c = '\n'

/-- `l` is the line of a text that holds the byte at `offset`: it stands
between `before` and `after`, which begins with the next line. -/
structure Line.Holds (s : List Char) (offset : Nat)
    (before after : List Char) (l : Line) : Prop where
  number : l.number = 1 + ((bytes s).take offset).count feedByte
  source : s = before ++ l.text ++ after
  place : size before + l.offset = offset
  inside : l.offset < size l.text
  starts : WholeLines before
  feed : '\n' ∉ l.text.dropLast
  stops : after = [] ∨ l.text.getLast? = some '\n'

theorem WholeLines.exists_of_ne_nil (h : WholeLines s) (hs : s ≠ []) :
    ∃ t, s = t ++ ['\n'] := by
  have hlast := h _ (List.getLast?_eq_some_getLast hs)
  exact ⟨s.dropLast, by rw [← hlast, List.dropLast_append_getLast hs]⟩

/-- Text without a line feed is all that is on the last line behind whole
lines. -/
theorem lastLine_append_of_wholeLines (h : WholeLines before)
    (ht : '\n' ∉ t) : lastLine (before ++ t) = t := by
  by_cases hnil : before = []
  · rw [hnil, List.nil_append, lastLine_of_not_mem ht]
  · obtain ⟨u, rfl⟩ := h.exists_of_ne_nil hnil
    rw [List.append_assoc, List.singleton_append, lastLine_append_feed,
      lastLine_of_not_mem ht]

/-- A text is whole lines and then its last one. -/
theorem exists_wholeLines (s : List Char) :
    ∃ t, s = t ++ lastLine s ∧ WholeLines t := by
  refine ⟨s.rdropWhile (· != '\n'), ?_, ?_⟩
  · exact List.rdropWhile_append_rtakeWhile.symm
  · intro c hc
    have hne : s.rdropWhile (· != '\n') ≠ [] := by
      rintro hnil
      rw [hnil] at hc
      cases hc
    have hstop := List.rdropWhile_last_not (· != '\n') s hne
    rw [List.getLast?_eq_some_getLast hne] at hc
    cases hc
    simpa using hstop

/-- The first line of a text, by where its line feed is. -/
theorem splitLine_append_of_stops (hfeed : '\n' ∉ t.dropLast)
    (hstops : after = [] ∨ t.getLast? = some '\n') :
    splitLine (t ++ after) = (t, after) := by
  by_cases hlast : t.getLast? = some '\n'
  · obtain ⟨u, rfl⟩ := List.getLast?_eq_some_iff.mp hlast
    rw [List.dropLast_concat] at hfeed
    rw [List.append_assoc, splitLine_append_of_not_mem hfeed]
    rfl
  · obtain rfl : after = [] := hstops.resolve_right hlast
    have hnot : '\n' ∉ t := by
      intro hmem
      have hne := List.ne_nil_of_mem hmem
      rw [← List.dropLast_append_getLast hne, List.mem_append,
        List.mem_singleton] at hmem
      rcases hmem with hmem | heq
      · exact hfeed hmem
      · exact hlast (by rw [List.getLast?_eq_some_getLast hne, heq])
    rw [splitLine_append_of_not_mem hnot]
    simp [splitLine]

/-- What a first line and the rest are. -/
theorem splitLine_stops (s : List Char) :
    '\n' ∉ (splitLine s).1.dropLast ∧
      ((splitLine s).2 = [] ∨ (splitLine s).1.getLast? = some '\n') := by
  have hfree : '\n' ∉ s.takeWhile (· != '\n') := by
    intro h
    have hfeed := List.mem_takeWhile_imp h
    simp at hfeed
  have hstop := List.head?_dropWhile_not (· != '\n') s
  unfold splitLine
  cases hdrop : s.dropWhile (· != '\n') with
  | nil => exact ⟨fun h => hfree ((List.dropLast_subset _) h), Or.inl rfl⟩
  | cons c r =>
    rw [hdrop] at hstop
    obtain rfl : c = '\n' := by simpa using hstop
    exact ⟨by rwa [List.dropLast_concat], Or.inr List.getLast?_concat⟩

-- ============================================================ the inverse

variable {l m : Line} {p q : Nat}

/-- The character that an offset falls into, in its line and in the text. -/
theorem Line.Holds.exists_char (h : l.Holds s p before after) :
    ∃ t c u k, k < c.utf8Size ∧ l.text = t ++ c :: u ∧
      l.offset = size t + k ∧ s = (before ++ t) ++ c :: (u ++ after) ∧
      p = size (before ++ t) + k ∧ '\n' ∉ t ∧ '\n' ∉ (c :: u).dropLast := by
  obtain ⟨t, c, u, k, htext, hoffset, hk⟩ := exists_char_of_lt_size h.inside
  have hfeed := h.feed
  rw [htext, List.dropLast_append_of_ne_nil (List.cons_ne_nil c u),
    List.mem_append, not_or] at hfeed
  refine ⟨t, c, u, k, hk, htext, hoffset, ?_, ?_, hfeed.1, hfeed.2⟩
  · rw [h.source, htext]
    simp only [List.append_assoc, List.cons_append]
  · rw [← h.place, hoffset, size_append, Nat.add_assoc]

/-- The number of a line counts the line feeds of the lines before it. -/
theorem Line.Holds.number_eq (h : l.Holds s p before after) :
    l.number = 1 + before.count '\n' := by
  obtain ⟨t, c, u, k, hk, -, -, hsource, hplace, hfree, -⟩ := h.exists_char
  rw [h.number, hsource, hplace, count_feed_take_bytes hk, List.count_append,
    List.count_eq_zero.mpr hfree, Nat.add_zero]

/-- A line that holds an offset is the one found there. -/
theorem Line.Holds.lineAt?_eq (h : l.Holds s p before after) :
    lineAt? s p = some l := by
  obtain ⟨t, c, u, k, hk, htext, hoffset, hsource, hplace, hfree, hfeed⟩ :=
    h.exists_char
  have hstops := h.stops
  rw [htext, List.getLast?_append_of_ne_nil t (List.cons_ne_nil c u)] at hstops
  have hlast : lastLine (before ++ t) = t :=
    lastLine_append_of_wholeLines h.starts hfree
  have hfirst : (splitLine (c :: (u ++ after))).1 = c :: u := by
    rw [← List.cons_append, splitLine_append_of_stops hfeed hstops]
  have hnumber : 1 + (before ++ t).count '\n' = l.number := by
    rw [h.number_eq, List.count_append, List.count_eq_zero.mpr hfree,
      Nat.add_zero]
  rw [hsource, hplace, lineAt?_append hk, hlast, hfirst, hnumber, ← htext,
    ← hoffset]

/-- Every offset inside a text is held by a line. -/
theorem Line.exists_holds (h : p < size s) :
    ∃ l before after, Line.Holds s p before after l := by
  obtain ⟨pre, c, v, k, rfl, rfl, hk⟩ := exists_char_of_lt_size h
  obtain ⟨before, hbefore, hwhole⟩ := exists_wholeLines pre
  obtain ⟨hfeed, hstops⟩ := splitLine_stops (c :: v)
  have hsplit := splitLine_append (c :: v)
  have hne : (splitLine (c :: v)).1 ≠ [] := by
    intro hnil
    have hlt := length_splitLine_lt (List.cons_ne_nil c v)
    rw [hnil, List.nil_append] at hsplit
    rw [hsplit] at hlt
    exact Nat.lt_irrefl _ hlt
  have hbytes : c.utf8Size ≤ size (splitLine (c :: v)).1 := by
    obtain ⟨d, u, hu⟩ := List.exists_cons_of_ne_nil hne
    rw [hu, List.cons_append] at hsplit
    obtain rfl : d = c := (List.cons.inj hsplit).1
    rw [hu, size_cons]
    omega
  have hsize : size pre = size before + size (lastLine pre) := by
    rw [← size_append, ← hbefore]
  refine ⟨⟨1 + pre.count '\n', lastLine pre ++ (splitLine (c :: v)).1,
    size (lastLine pre) + k⟩, before, (splitLine (c :: v)).2, ?_⟩
  exact {
    number := by rw [count_feed_take_bytes hk]
    source := by
      rw [List.append_assoc, List.append_assoc, hsplit, ← List.append_assoc,
        ← hbefore]
    place := by
      rw [hsize]
      exact (Nat.add_assoc _ _ _).symm
    inside := by
      dsimp only
      rw [size_append]
      omega
    starts := hwhole
    feed := by
      rw [List.dropLast_append_of_ne_nil hne, List.mem_append, not_or]
      exact ⟨feed_not_mem_lastLine pre, hfeed⟩
    stops := by rwa [List.getLast?_append_of_ne_nil _ hne] }

theorem size_splitLine (s : List Char) :
    size (splitLine s).1 + size (splitLine s).2 = size s := by
  rw [← size_append, splitLine_append]

/-- An offset behind the last byte falls into no line. -/
theorem lineFrom?_of_size_le {n : Nat} (h : size s ≤ p) :
    lineFrom? n p s = none := by
  fun_induction lineFrom? n p s with
  | case1 n p => rfl
  | case2 n p s hs line hlt =>
    have hsize : size line + size (splitLine s).2 = size s := size_splitLine s
    omega
  | case3 n p s hs line hge ih =>
    have hsize : size line + size (splitLine s).2 = size s := size_splitLine s
    exact ih (by omega)

-- ============================================================== the order

/-- Whole lines at the start of a text are told by how many they are. -/
theorem eq_of_count_feed (ht : WholeLines t)
    (hcount : s.count '\n' = t.count '\n') (hpre : s <+: t) : s = t := by
  obtain ⟨u, rfl⟩ := hpre
  rw [List.count_append] at hcount
  by_cases hnil : u = []
  · rw [hnil, List.append_nil]
  · have hlast := ht _ (by
      rw [List.getLast?_append_of_ne_nil s hnil]
      exact List.getLast?_eq_some_getLast hnil)
    have hmem : '\n' ∈ u := hlast ▸ List.getLast_mem hnil
    have hpos := List.count_pos_iff.mpr hmem
    omega

/-- A later offset is held further on. -/
theorem Line.Holds.lt {before' after' : List Char}
    (hl : l.Holds s p before after) (hm : m.Holds s q before' after')
    (hpq : p < q) :
    l.number < m.number ∨ l.number = m.number ∧ l.offset < m.offset := by
  have hle : l.number ≤ m.number := by
    rw [hl.number, hm.number]
    exact Nat.add_le_add_left
      ((List.take_prefix_take_left (Nat.le_of_lt hpq)).count_le feedByte) 1
  rcases Nat.lt_or_eq_of_le hle with hlt | heq
  · exact Or.inl hlt
  · -- as many line feeds before both: it is one line
    have hcount : before.count '\n' = before'.count '\n' := by
      have hnumber := heq
      rw [hl.number_eq, hm.number_eq] at hnumber
      omega
    have hbefore : before <+: s := ⟨l.text ++ after, by
      rw [hl.source, List.append_assoc]⟩
    have hbefore' : before' <+: s := ⟨m.text ++ after', by
      rw [hm.source, List.append_assoc]⟩
    have hsame : before = before' := by
      rcases List.prefix_or_prefix_of_prefix hbefore hbefore' with h | h
      · exact eq_of_count_feed hm.starts hcount h
      · exact (eq_of_count_feed hl.starts hcount.symm h).symm
    have hp := hl.place
    have hq := hm.place
    rw [hsame] at hp
    exact Or.inr ⟨heq, by omega⟩

/-- The line of an offset, for every text. There is none exactly behind the
last byte, and else it is the line that holds the offset. So a later offset
has a later place. -/
theorem lineAt?_inverts (s : List Char) :
    (∀ p, lineAt? s p = none ↔ (bytes s).length ≤ p) ∧
    (∀ p l, lineAt? s p = some l ↔ ∃ before after,
      Line.Holds s p before after l) ∧
    ∀ p q l m, p < q → lineAt? s p = some l → lineAt? s q = some m →
      l.number < m.number ∨ l.number = m.number ∧ l.offset < m.offset := by
  have hnone : ∀ p, lineAt? s p = none ↔ (bytes s).length ≤ p := by
    intro p
    rw [length_bytes]
    refine ⟨fun h => Nat.le_of_not_lt fun hlt => ?_, lineFrom?_of_size_le⟩
    obtain ⟨l, before, after, hl⟩ := Line.exists_holds hlt
    rw [hl.lineAt?_eq] at h
    cases h
  have hsome : ∀ p l, lineAt? s p = some l ↔ ∃ before after,
      Line.Holds s p before after l := by
    intro p l
    refine ⟨fun h => ?_, fun ⟨_, _, hl⟩ => hl.lineAt?_eq⟩
    have hlt : p < size s := by
      rw [← length_bytes, ← Nat.not_le, ← hnone, h]
      exact Option.some_ne_none l
    obtain ⟨m, before, after, hm⟩ := Line.exists_holds hlt
    rw [hm.lineAt?_eq] at h
    cases h
    exact ⟨before, after, hm⟩
  refine ⟨hnone, hsome, fun p q l m hpq hl hm => ?_⟩
  obtain ⟨_, _, hl⟩ := (hsome p l).mp hl
  obtain ⟨_, _, hm⟩ := (hsome q m).mp hm
  exact hl.lt hm hpq

/-- A line feed, the second byte of a character behind an empty line, and the
end of the text. -/
theorem lineAt?_inverts_accent :
    let s := "ab\n\né\n".toList
    lineAt? s 2 = some ⟨1, "ab\n".toList, 2⟩ ∧
      lineAt? s 5 = some ⟨3, "é\n".toList, 1⟩ ∧
      (∃ before after, Line.Holds s 5 before after ⟨3, "é\n".toList, 1⟩) ∧
      (1 < 3 ∨ 1 = 3 ∧ 2 < 1) ∧ lineAt? s 7 = none := by
  intro s
  have hfeed : lineAt? s 2 = some ⟨1, "ab\n".toList, 2⟩ := by decide +kernel
  have haccent : lineAt? s 5 = some ⟨3, "é\n".toList, 1⟩ := by
    decide +kernel
  obtain ⟨hnone, hsome, hlt⟩ := lineAt?_inverts s
  have hend : (bytes s).length ≤ 7 := by decide +kernel
  exact ⟨hfeed, haccent, (hsome 5 _).mp haccent,
    hlt 2 5 _ _ (by decide) hfeed haccent, (hnone 7).mpr hend⟩

end MiniC.Text
