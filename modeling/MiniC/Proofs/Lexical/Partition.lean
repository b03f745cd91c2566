import MiniC.Proofs.Lexical.Weave

/-!
Tokens as a partition of their source.

Nothing of an accepted source is lost, shifted or read twice. Between the
blanks its text is cut into as many lexemes as there are tokens, and each
token covers the one at its own index (`tokenize_partition`). The cut does
not depend on what stands around it: from any lexeme to any later one, the
text scanned alone gives the kinds of just these lexemes.
-/

namespace MiniC

open Text

/-- The token stands for the text `l` that starts `n` bytes into the named
file, where offsets wrap at 2³². -/
structure Token.Covers (file : String) (n : Nat) (l : List Char)
    (t : Token) : Prop where
  file_start : t.span.start.file = file
  file_stop : t.span.stop.file = file
  offset_start : t.span.start.offset.toNat = n % UInt32.size
  offset_stop : t.span.stop.offset.toNat = (n + size l) % UInt32.size
  lexeme : ∀ x, t.kind.lexeme? = some x → l = x.toList
  name : ∀ x, t.kind = .identifier x → l = x.toList
  literal : ∀ x, t.kind = .constant x → IsNumber l

theorem Lexeme.covers_token {l : Lexeme} (h : l.kind.Spells l.text)
    (file : String) : (l.token file).Covers file l.start l.text where
  file_start := rfl
  file_stop := rfl
  offset_start := Position.toNat_offset_ofOffset l.start file
  offset_stop := Position.toNat_offset_ofOffset (l.start + size l.text) file
  lexeme _ hx := h.eq_of_lexeme? hx
  name x hx := by
    rw [show l.kind = .identifier x from hx] at h
    generalize l.text = w at h
    cases h with
    | identifier _ _ => exact String.toList_ofList.symm
  literal x hx := by
    rw [show l.kind = .constant x from hx] at h
    generalize l.text = w at h
    cases h with
    | constant hn => exact hn

/-- The text `s` is woven from the entries and the blanks `tail`, and the
tokens of the named file are those of the entries. -/
structure Token.Partition (file : String) (ts : List Token) (s : List Char)
    (es : List Entry) (tail : List Char) : Prop where
  source : s = Entry.weave es ++ tail
  kinds : es.map Entry.kind = ts.map Token.kind
  blank_gap : ∀ e ∈ es, ∀ c ∈ e.gap, isBlank c = true
  blank_tail : ∀ c ∈ tail, isBlank c = true
  text_ne_nil : ∀ e ∈ es, e.text ≠ []
  blank_text : ∀ e ∈ es, ∀ c ∈ e.text, isBlank c = false
  /-- Each token covers the lexeme at its index, where this stands. -/
  covers : ∀ (i : Nat) e t, es[i]? = some e → ts[i]? = some t →
    t.Covers file (size (Entry.weave (es.take i) ++ e.gap)) e.text
  /-- Words and numbers in a row have blanks in between. -/
  apart : es.IsChain fun e f =>
    IsWord e.text ∨ IsNumber e.text → IsWord f.text ∨ IsNumber f.text →
      f.gap ≠ []
  /-- The text of any lexemes in a row has their kinds. -/
  stretch : ∀ i n,
    Entry.stretch ((es.drop i).take n) <:+: s ∧
      scan (String.ofList (Entry.stretch ((es.drop i).take n)))
        = .ok (((ts.drop i).take n).map Token.kind)

theorem Token.partition_placed {es : List Entry} {tail : List Char}
    (hes : es.IsChain Entry.Apart) (htail : ∀ c ∈ tail, isBlank c = true)
    (file : String) :
    Token.Partition file ((Entry.placed 0 es).map (Lexeme.token file))
      (Entry.weave es ++ tail) es tail := by
  have hkinds : es.map Entry.kind
      = ((Entry.placed 0 es).map (Lexeme.token file)).map Token.kind := by
    rw [List.map_map]
    exact (Entry.map_kind_placed 0 es).symm
  exact {
    source := rfl
    kinds := hkinds
    blank_gap := fun e _ => e.blank
    blank_tail := htail
    text_ne_nil := fun e _ => e.spells.ne_nil
    blank_text := fun e _ => e.spells.isBlank_eq_false
    covers := by
      intro i e t he ht
      rw [List.getElem?_map, Entry.getElem?_placed, he] at ht
      cases ht
      dsimp only
      rw [Nat.zero_add]
      exact Lexeme.covers_token (l := ⟨e.kind, e.text, _⟩) e.spells file
    apart := hes.imp fun _ _ h => Entry.apart_iff.mp h
    stretch := by
      intro i n
      have hinfix : (es.drop i).take n <:+: es :=
        (List.take_prefix n _).isInfix.trans (List.drop_suffix i es).isInfix
      have hchain : ((es.drop i).take n).IsChain Entry.Apart :=
        List.IsChain.infix hes hinfix
      refine ⟨?_, ?_⟩
      · exact (Entry.stretch_isInfix hinfix).trans
          (List.prefix_append _ tail).isInfix
      · rw [Entry.scan_stretch hchain, List.map_take, List.map_drop, hkinds,
          List.map_take, List.map_drop] }

/-- Every accepted source is partitioned by its tokens. -/
theorem tokenize_partition (s : String) (file : Option String)
    (ts : List Token) (h : tokenize s file = .ok ts) :
    ∃ es tail,
      Token.Partition (file.getD unnamedFile) ts s.toList es tail := by
  obtain ⟨ls, hls, rfl⟩ := tokenize_eq_ok_iff.mp h
  obtain ⟨es, tail, hs, hes, htail⟩ := Entry.exists_weave hls
  rw [hs, Entry.lexemes_weave hes htail] at hls
  cases hls
  rw [hs]
  exact ⟨es, tail, Token.partition_placed hes htail _⟩

/-- Four tokens, between blanks of every kind and none. -/
theorem tokenize_partition_return :
    let ts : List Token :=
      [⟨.keyword .ret, .ofOffset 1 6 "a.c"⟩,
        ⟨.constant (.integer 2), .ofOffset 9 1 "a.c"⟩,
        ⟨.punctuator .semicolon, .ofOffset 10 1 "a.c"⟩,
        ⟨.identifier "x_1", .ofOffset 11 3 "a.c"⟩]
    tokenize " return\t\n2;x_1\r" (some "a.c") = .ok ts ∧
      ∃ es tail, Token.Partition "a.c" ts " return\t\n2;x_1\r".toList
        es tail := by
  intro ts
  have h : tokenize " return\t\n2;x_1\r" (some "a.c") = .ok ts := by
    decide +kernel
  exact ⟨h, tokenize_partition _ (some "a.c") ts h⟩

end MiniC
