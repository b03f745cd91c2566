import MiniC.Diagnostic.Excerpt
import MiniC.Proofs.Lexical.Failure
import MiniC.Proofs.Text.Line

/-!
The excerpt of a lexical failure.

# Columns

A column is printed as an offset in bytes, and it is drawn as a width in
characters. Both are the same because the scan got to the failure: all text
before it is made of lexemes and blanks, which are ASCII
(`toNat_lt_of_lexemes`). The failure is no blank, so the indentation of its
line ends before it, and what the arrow loses is never more than its column.

# The excerpt

`Excerpt.Shows` says what an excerpt has to be for a place in a source, in
terms of the texts before and behind the place. A failed scan of a source
that offsets do not wrap in has such an excerpt
(`exists_excerpt_of_tokenize_error`), and with it come the header, the bars
and the arrow (`location_of_tokenize_error`).
-/

namespace MiniC

open Text

-- ================================================================= ASCII

theorem Text.toNat_lt_of_isRunChar {c : Char} (h : isRunChar c = true) :
    c.toNat < 128 := by
  have hbelow : ∀ d : Char, c.val ≤ d.val → d.toNat < 128 → c.toNat < 128 :=
    fun d hle hd => Nat.lt_of_le_of_lt (UInt32.le_iff_toNat_le.mp hle) hd
  simp only [isRunChar, isNameChar, Bool.or_eq_true, beq_iff_eq] at h
  rcases h with (hletter | rfl) | rfl
  · rcases Bool.or_eq_true_iff.mp hletter with halpha | hdigit
    · rcases Bool.or_eq_true_iff.mp halpha with hupper | hlower
      · exact hbelow 'Z' (of_decide_eq_true hupper).2 (by decide)
      · have hle := (Bool.and_eq_true_iff.mp hlower).2
        exact hbelow 'z' (of_decide_eq_true hle) (by decide)
    · have hle := (Bool.and_eq_true_iff.mp hdigit).2
      exact hbelow '9' (of_decide_eq_true hle) (by decide)
  · decide
  · decide

theorem IsSourceChar.toNat_lt {c : Char} (h : IsSourceChar c) :
    c.toNat < 128 := by
  rcases h with hblank | ⟨p, rfl⟩ | hrun
  · rcases isBlank_cases hblank with rfl | rfl | rfl | rfl <;> decide
  · cases p <;> decide
  · exact toNat_lt_of_isRunChar hrun

/-- What is scanned to the end is ASCII. -/
theorem toNat_lt_of_lexemes {s : List Char} {ls : List Lexeme}
    (h : lexemes s = .ok ls) : ∀ c ∈ s, c.toNat < 128 := by
  have hspells := (lexemes_eq_ok_iff s _).mp ⟨ls, h, rfl⟩
  have hpieces := exists_forall₂_spells.mp ⟨_, hspells⟩
  obtain ⟨hchars, -⟩ := forall_mem_inked_spells_iff.mp hpieces
  intro c hc
  exact (hchars c hc).toNat_lt

theorem Text.size_eq_length {s : List Char} (h : ∀ c ∈ s, c.toNat < 128) :
    size s = s.length := by
  induction s with
  | nil => rfl
  | cons c s ih =>
    obtain ⟨hc, hs⟩ := List.forall_mem_cons.mp h
    have hone : c.utf8Size = 1 := by
      rw [Char.utf8Size_eq_one_iff, UInt32.le_iff_toNat_le]
      exact Nat.le_of_lt_succ hc
    rw [size_cons, ih hs, hone, List.length_cons]
    omega

-- ============================================================= the place

/-- The line of the place between two texts, without its line feed. -/
def Text.currentLine (pre v : List Char) : List Char :=
  lastLine pre ++ v.takeWhile (· != '\n')

/-- What an excerpt has to say of the place between two texts. -/
structure Excerpt.Shows (e : Excerpt) (pre v : List Char) : Prop where
  line : e.line = 1 + pre.count '\n'
  column : e.column = 1 + (lastLine pre).length
  /-- The place is not inside the indentation of its line. -/
  indent_le : ((currentLine pre v).takeWhile isIndent).length
    ≤ (lastLine pre).length
  dashes : e.dashes = (lastLine pre).length
    - ((currentLine pre v).takeWhile isIndent).length
  text : e.text = trimEnd ((currentLine pre v).dropWhile isIndent)

variable {pre v : List Char} {c : Char}

theorem Text.ne_feed_of_isBlank (hc : isBlank c = false) : c ≠ '\n' := by
  rintro rfl
  cases hc

theorem Text.isIndent_of_isBlank (hc : isBlank c = false) :
    isIndent c = false := by
  cases h : isIndent c with
  | false => rfl
  | true =>
    rw [isBlank_of_isIndent h] at hc
    cases hc

/-- The indentation of a line ends before a character that is no blank. -/
theorem Text.dropWhile_currentLine (hc : isBlank c = false) :
    (currentLine pre (c :: v)).dropWhile isIndent
      = (lastLine pre).dropWhile isIndent
        ++ (c :: v).takeWhile (· != '\n') := by
  unfold currentLine
  refine dropWhile_append_of_stop fun d hd => ?_
  rw [List.takeWhile_cons_of_pos (by simpa using ne_feed_of_isBlank hc)] at hd
  cases hd
  exact isIndent_of_isBlank hc

theorem Text.length_takeWhile_currentLine (hc : isBlank c = false) :
    ((currentLine pre (c :: v)).takeWhile isIndent).length
      = ((lastLine pre).takeWhile isIndent).length := by
  unfold currentLine
  refine congrArg List.length (takeWhile_append_of_stop fun d hd => ?_)
  rw [List.takeWhile_cons_of_pos (by simpa using ne_feed_of_isBlank hc)] at hd
  cases hd
  exact isIndent_of_isBlank hc

namespace Excerpt

/-- The line feed of a line is not shown. -/
theorem ofLine_append_feed (number offset : Nat) (text : List Char) :
    ofLine ⟨number, text ++ ['\n'], offset⟩
      = ofLine ⟨number, text, offset⟩ := by
  have hstop : ∀ c ∈ ['\n'].head?, isIndent c = false := by
    rintro c ⟨⟩
    rfl
  unfold ofLine
  rw [dropWhile_append_of_stop hstop, takeWhile_append_of_stop hstop,
    trimEnd_append_of_space _ (List.forall_mem_singleton.mpr rfl)]

/-- The excerpt for a byte of a source, by the texts before and behind its
character. -/
theorem at?_append {k : Nat} (hk : k < c.utf8Size) (pre v : List Char) :
    at? (pre ++ c :: v) (size pre + k)
      = some (ofLine ⟨1 + pre.count '\n', currentLine pre (c :: v),
          size (lastLine pre) + k⟩) := by
  rw [at?, lineAt?_append hk, Option.map_some, currentLine]
  rcases splitLine_fst (c :: v) with h | h
  · rw [h]
  · rw [h, ← List.append_assoc, ofLine_append_feed]

/-- The byte of a place with ASCII before it and no blank behind it has an
excerpt, which shows the place. -/
theorem exists_shows (hascii : ∀ d ∈ pre, d.toNat < 128)
    (hc : isBlank c = false) (v : List Char) :
    ∃ e, at? (pre ++ c :: v) (size pre) = some e ∧ e.Shows pre (c :: v) := by
  have hat := at?_append (k := 0) c.utf8Size_pos pre v
  have hwidth : size (lastLine pre) = (lastLine pre).length :=
    size_eq_length fun d hd => hascii d ((lastLine_isSuffix pre).mem hd)
  rw [hwidth, Nat.add_zero, Nat.add_zero] at hat
  refine ⟨_, hat, ?_⟩
  exact {
    line := rfl
    column := Nat.add_comm _ _
    indent_le := by
      rw [length_takeWhile_currentLine hc]
      exact (List.takeWhile_prefix _).length_le
    dashes := rfl
    text := rfl }

end Excerpt

-- ============================================================ the failure

/-- A failure has a place unless its file has the reserved name. -/
theorem isNull_iff_of_tokenize_error {s : String} {file : Option String}
    {d : Diagnostic} (h : tokenize s file = .error d) :
    d.position.isNull = true ↔ file = some Position.nullFile := by
  obtain ⟨f, -, rfl⟩ := tokenize_eq_error_iff.mp h
  unfold Position.isNull
  rw [Fault.diagnostic, Position.file_ofOffset, beq_iff_eq]
  cases file with
  | none => decide
  | some name => exact Option.some_inj.symm

theorem excerpt?_of_tokenize_error {s : String} {file : Option String}
    {d : Diagnostic} (h : tokenize s file = .error d)
    (hfile : file ≠ some Position.nullFile) (source : List Char) :
    d.excerpt? source = Excerpt.at? source d.position.offset.toNat :=
  if_neg (mt (isNull_iff_of_tokenize_error h).mp hfile)

/-- A failed scan has an excerpt, which shows the place that the text to be
blamed starts at. -/
theorem exists_excerpt_of_tokenize_error {s : String} {file : Option String}
    {d : Diagnostic} (h : tokenize s file = .error d)
    (hsize : size s.toList < UInt32.size)
    (hfile : file ≠ some Position.nullFile) :
    ∃ pre c v e, s.toList = pre ++ c :: v ∧
      size pre = d.position.offset.toNat ∧ (∀ b ∈ pre, b.toNat < 128) ∧
      isBlank c = false ∧ Blames (c :: v) d.failure ∧
      d.excerpt? s.toList = some e ∧ e.Shows pre (c :: v) := by
  obtain ⟨f, hf, rfl⟩ := tokenize_eq_error_iff.mp h
  obtain ⟨pre, w, ls, hs, hoffset, hls, hblame⟩ := lexemes_eq_error hf
  obtain ⟨c, v, rfl, hblank⟩ := hblame.exists_cons
  have hascii := toNat_lt_of_lexemes hls
  obtain ⟨e, he, hshows⟩ := Excerpt.exists_shows hascii hblank v
  have hplace : (f.diagnostic (file.getD unnamedFile)).position.offset.toNat
      = size pre := by
    rw [hs, size_append] at hsize
    rw [Fault.diagnostic, Position.toNat_offset_ofOffset, hoffset,
      Nat.mod_eq_of_lt (by omega)]
  refine ⟨pre, c, v, e, hs, hplace.symm, hascii, hblank, hblame, ?_, hshows⟩
  rw [excerpt?_of_tokenize_error h hfile, hplace, hs]
  exact he

theorem Diagnostic.toList_render {d : Diagnostic} {s : String} {e : Excerpt}
    (he : d.excerpt? s.toList = some e) (path : String) :
    (d.render s path).toList
      = (d.report.toList :: d.note?.toList ++ e.lines path.toList).flatMap
          (· ++ ['\n']) := by
  unfold Diagnostic.render Diagnostic.lines
  rw [he, String.toList_ofList]

-- ========================================================== as it is drawn

theorem Numeric.not_mem_digits {x : Char} (hx : x.isDigit = false) (n : Nat) :
    x ∉ digits n := by
  intro hmem
  have hdigit := Nat.isDigit_of_mem_toDigits (by decide) (by decide) hmem
  rw [hx] at hdigit
  cases hdigit

/-- The lines of an excerpt for a place: its line and column, both from one,
and the width of the indentation that is not shown. -/
structure Excerpt.Drawn (path : List Char) (line column indent : Nat)
    (header bar shown arrow : List Char) : Prop where
  header_eq : header = ['-', '>', ' '] ++ path ++ ':' :: Numeric.digits line
    ++ ':' :: Numeric.digits column
  bar_eq : bar
    = List.replicate ((Numeric.digits line).length + 1) ' ' ++ ['|']
  shown_eq : ∃ text, shown = Numeric.digits line ++ [' ', '|', ' '] ++ text
  arrow_eq : arrow
    = bar ++ ' ' :: List.replicate (column - 1 - indent) '-' ++ ['^']
  /-- The three bars stand in one column. -/
  idxOf_bar : ∀ l ∈ [bar, shown, arrow],
    l.idxOf '|' = (Numeric.digits line).length + 1

theorem Excerpt.idxOf_bar_append (e : Excerpt) (t : List Char) :
    (e.bar ++ t).idxOf '|' = (Numeric.digits e.line).length + 1 := by
  unfold bar
  rw [List.append_assoc, List.idxOf_append_of_notMem (by simp)]
  simp

theorem Excerpt.drawn (e : Excerpt) (path : List Char) {indent : Nat}
    (h : e.dashes = e.column - 1 - indent) :
    Drawn path e.line e.column indent (e.location path) e.bar e.numbered
      e.arrow where
  header_eq := rfl
  bar_eq := rfl
  shown_eq := ⟨e.text, rfl⟩
  arrow_eq := by rw [Excerpt.arrow, h]
  idxOf_bar := by
    intro l hl
    simp only [List.mem_cons, List.not_mem_nil, or_false] at hl
    rcases hl with rfl | rfl | rfl
    · have hbar := e.idxOf_bar_append []
      rwa [List.append_nil] at hbar
    · have hpipe := Numeric.not_mem_digits (x := '|') (by decide) e.line
      unfold numbered
      rw [List.append_assoc, List.idxOf_append_of_notMem hpipe]
      simp
    · unfold Excerpt.arrow
      rw [List.append_assoc]
      exact e.idxOf_bar_append _

/-- A failed scan is shown at its place. The text before is ASCII, the
header counts the line feeds and the characters of the line before the
place, and the arrow is as long as the column without the indentation, which
is never more than the column. -/
theorem location_of_tokenize_error (s path : String) (file : Option String)
    (d : Diagnostic) (h : tokenize s file = .error d)
    (hsize : size s.toList < UInt32.size)
    (hfile : file ≠ some Position.nullFile) :
    ∃ pre c v, s.toList = pre ++ c :: v ∧
      size pre = d.position.offset.toNat ∧ (∀ b ∈ pre, b.toNat < 128) ∧
      ∃ line column indent header bar shown arrow,
        line = 1 + pre.count '\n' ∧
        column = 1 + (lastLine pre).length ∧
        indent = ((currentLine pre (c :: v)).takeWhile isIndent).length ∧
        indent ≤ column - 1 ∧
        (d.render s path).toList
          = (d.report.toList :: d.note?.toList
              ++ [header, bar, shown, arrow]).flatMap (· ++ ['\n']) ∧
        Excerpt.Drawn path.toList line column indent header bar shown
          arrow := by
  obtain ⟨pre, c, v, e, hs, hplace, hascii, -, -, he, hshows⟩ :=
    exists_excerpt_of_tokenize_error h hsize hfile
  have hcolumn : e.column - 1 = (lastLine pre).length := by
    rw [hshows.column]
    omega
  have hdashes := hshows.dashes
  have hindent := hshows.indent_le
  rw [← hcolumn] at hdashes hindent
  exact ⟨pre, c, v, hs, hplace, hascii, e.line, e.column, _, _, _, _, _,
    hshows.line, hshows.column, rfl, hindent, d.toList_render he path,
    e.drawn path.toList hdashes⟩

/-- A failure on the second line, behind an indentation. -/
theorem location_of_tokenize_error_second_line :
    let s := "int\r\n\t 2 $;"
    let d : Diagnostic :=
      ⟨.unknownCharacter "$", .lex, .ofOffset 9 "a.c"⟩
    tokenize s (some "a.c") = .error d ∧ size s.toList < UInt32.size ∧
      some "a.c" ≠ some Position.nullFile ∧
      d.render s "src/a.c" = "Fatal error during lexing: unknown character: " ++
        "\"$\"\n-> src/a.c:2:5\n  |\n2 | 2 $;\n  | --^\n" ∧
      ∃ pre c v, s.toList = pre ++ c :: v ∧ size pre = 9 ∧
        ∃ line column indent header bar shown arrow,
          line = 1 + pre.count '\n' ∧ column = 1 + (lastLine pre).length ∧
          indent = ((currentLine pre (c :: v)).takeWhile isIndent).length ∧
          Excerpt.Drawn "src/a.c".toList line column indent header bar shown
            arrow := by
  intro s d
  have h : tokenize s (some "a.c") = .error d := by decide +kernel
  have hsize : size s.toList < UInt32.size := by decide
  have hfile : some "a.c" ≠ some Position.nullFile := by decide
  obtain ⟨pre, c, v, hs, hplace, -, line, column, indent, header, bar, shown,
    arrow, hline, hcolumn, hindent, -, -, hdrawn⟩ :=
    location_of_tokenize_error s "src/a.c" (some "a.c") d h hsize hfile
  exact ⟨h, hsize, hfile, by decide +kernel, pre, c, v, hs, hplace, line,
    column, indent, header, bar, shown, arrow, hline, hcolumn, hindent, hdrawn⟩

end MiniC
