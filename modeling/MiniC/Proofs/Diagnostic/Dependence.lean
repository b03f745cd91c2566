import MiniC.Path
import MiniC.Proofs.Diagnostic.Excerpt

/-!
What a shown failure depends on.

# The name of the file

The place of a failure is an offset into the source, also where a long
source has it wrapped, so that there is a line to show for it. One thing
alone can keep the line away: a place counts as none by the name of its
file, and a file may have the name that is reserved for that. Its failures
are shown without their place (`excerpt_of_tokenize_error`).

# The text behind

A line feed glues to nothing, so the scan of a source goes on over none, and
a failure stays what it is with any more lines behind it. The line to show
is found by the text up to its end. It may have got a line feed, but the end
of a line is trimmed (`Excerpt.ofLine_append_feed`). So a failure is shown
in the same words (`tokenize_error_append_lines`).
-/

namespace MiniC

open Text

-- =============================================================== failures

/-- The offset of a failure is one of the source, wrapped or not. -/
theorem offset_lt_of_tokenize_error {s : String} {file : Option String}
    {d : Diagnostic} (h : tokenize s file = .error d) :
    d.position.offset.toNat < size s.toList := by
  obtain ⟨f, hf, rfl⟩ := tokenize_eq_error_iff.mp h
  obtain ⟨pre, w, ls, hs, hoffset, -, hblame⟩ := lexemes_eq_error hf
  obtain ⟨c, v, rfl, -⟩ := hblame.exists_cons
  have hle := Nat.mod_le f.offset UInt32.size
  have hpos := c.utf8Size_pos
  rw [Fault.diagnostic, Position.toNat_offset_ofOffset, hs, size_append,
    size_cons]
  omega

theorem Diagnostic.toList_render_of_isNull {d : Diagnostic}
    (h : d.position.isNull = true) (s path : String) :
    (d.render s path).toList
      = (d.report.toList :: d.note?.toList).flatMap (· ++ ['\n']) := by
  unfold render lines excerpt?
  rw [if_pos h, String.toList_ofList, List.append_nil]

/-- A failure is shown with its report, its tip and the four lines of an
excerpt, which is that of the byte at its offset. Only if the file has the
name that is reserved for what has no place, it counts as none, and the
excerpt is missing. -/
theorem excerpt_of_tokenize_error (s path : String) (file : Option String)
    (d : Diagnostic) (h : tokenize s file = .error d) :
    (d.position.isNull = true ↔ file = some Position.nullFile) ∧
    (file ≠ some Position.nullFile →
      ∃ pre c v k, s.toList = pre ++ c :: v ∧ k < c.utf8Size ∧
        d.position.offset.toNat = size pre + k ∧
        ∃ line column indent header bar shown arrow,
          line = 1 + pre.count '\n' ∧
          column = size (lastLine pre) + k + 1 ∧
          indent = ((currentLine pre (c :: v)).takeWhile isIndent).length ∧
          (d.render s path).toList
            = (d.report.toList :: d.note?.toList
                ++ [header, bar, shown, arrow]).flatMap (· ++ ['\n']) ∧
          Excerpt.Drawn path.toList line column indent header bar shown
            arrow) ∧
    (file = some Position.nullFile →
      (d.render s path).toList
        = (d.report.toList :: d.note?.toList).flatMap (· ++ ['\n'])) := by
  have hnull := isNull_iff_of_tokenize_error h
  refine ⟨hnull, fun hfile => ?_, fun hfile =>
    d.toList_render_of_isNull (hnull.mpr hfile) s path⟩
  obtain ⟨pre, c, v, k, hs, hplace, hk⟩ :=
    exists_char_of_lt_size (offset_lt_of_tokenize_error h)
  have hexcerpt := excerpt?_of_tokenize_error h hfile s.toList
  rw [hplace, hs, Excerpt.at?_append hk, ← hs] at hexcerpt
  have hdrawn := Excerpt.drawn (Excerpt.ofLine ⟨1 + pre.count '\n',
    currentLine pre (c :: v), size (lastLine pre) + k⟩) path.toList rfl
  exact ⟨pre, c, v, k, hs, hk, hplace, _, _, _, _, _, _, _, rfl, rfl, rfl,
    d.toList_render hexcerpt path, hdrawn⟩

/-- The same failure in a file with a name of its own and in one with the
reserved name. -/
theorem excerpt_of_tokenize_error_point :
    let s := "return 1.;\n"
    let d (file : String) : Diagnostic :=
      ⟨.malformedNumber "1." .trailingPoint, .lex, .ofOffset 7 file⟩
    tokenize s (some "a.c") = .error (d "a.c") ∧
      some "a.c" ≠ some Position.nullFile ∧
      (∃ pre c v k, s.toList = pre ++ c :: v ∧ 7 = size pre + k ∧
        ∃ line column indent header bar shown arrow,
          line = 1 + pre.count '\n' ∧
          column = size (lastLine pre) + k + 1 ∧
          indent = ((currentLine pre (c :: v)).takeWhile isIndent).length ∧
          Excerpt.Drawn "src/a.c".toList line column indent header bar shown
            arrow) ∧
      tokenize s (some "<null>") = .error (d "<null>") ∧
      ((d "<null>").render s "src/<null>").toList
        = ((d "<null>").report.toList :: (d "<null>").note?.toList).flatMap
            (· ++ ['\n']) := by
  intro s d
  have h : tokenize s (some "a.c") = .error (d "a.c") := by decide +kernel
  have h' : tokenize s (some "<null>") = .error (d "<null>") := by
    decide +kernel
  have hfile : some "a.c" ≠ some Position.nullFile := by decide
  obtain ⟨-, hshown, -⟩ :=
    excerpt_of_tokenize_error s "src/a.c" (some "a.c") (d "a.c") h
  obtain ⟨pre, c, v, k, hs, -, hplace, line, column, indent, header, bar,
    shown, arrow, hline, hcolumn, hindent, -, hdrawn⟩ := hshown hfile
  obtain ⟨-, -, hmissing⟩ :=
    excerpt_of_tokenize_error s "src/<null>" (some "<null>") (d "<null>") h'
  exact ⟨h, hfile, ⟨pre, c, v, k, hs, hplace, line, column, indent, header,
    bar, shown, arrow, hline, hcolumn, hindent, hdrawn⟩, h', hmissing rfl⟩

/-- A path can lead to a file of the reserved name. A failure in it has a
line and an offset there, and is shown without. -/
theorem no_excerpt_of_null_file :
    let s := "return @;\n"
    let d : Diagnostic :=
      ⟨.unknownCharacter "@", .lex, .ofOffset 7 "<null>"⟩
    Path.inputName "src/<null>" = "<null>" ∧
      tokenize s (some "<null>") = .error d ∧ d.position.isNull = true ∧
      d.render s "src/<null>"
        = "Fatal error during lexing: unknown character: \"@\"\n" := by
  decide +kernel

-- ======================================================= more lines behind

/-- The excerpt for a byte does not change with more lines behind it. -/
theorem Excerpt.at?_append_lines {s : List Char} {offset : Nat}
    (h : offset < size s) (t : List Char) :
    at? (s ++ '\n' :: t) offset = at? s offset := by
  obtain ⟨pre, c, v, k, rfl, rfl, hk⟩ := exists_char_of_lt_size h
  have hline : currentLine pre (c :: v ++ '\n' :: t)
      = currentLine pre (c :: v) := by
    have hstop : ∀ b ∈ ('\n' :: t).head?, (b != '\n') = false := by
      rintro b ⟨⟩
      rfl
    rw [currentLine, takeWhile_append_of_stop hstop, currentLine]
  rw [at?_append hk, List.append_assoc, List.cons_append, at?_append hk,
    ← List.cons_append, hline]

/-- A failure in a source is the failure of the source with any more lines
behind it, and it is shown in the same words. -/
theorem tokenize_error_append_lines (s t path : String)
    (file : Option String) (d : Diagnostic)
    (h : tokenize s file = .error d) :
    tokenize (s ++ "\n" ++ t) file = .error d ∧
      d.render (s ++ "\n" ++ t) path = d.render s path := by
  have htext : (s ++ "\n" ++ t).toList = s.toList ++ '\n' :: t.toList := by
    rw [String.toList_append, String.toList_append, List.append_assoc]
    rfl
  have hexcerpt : d.excerpt? (s ++ "\n" ++ t).toList = d.excerpt? s.toList := by
    unfold Diagnostic.excerpt?
    rw [htext, Excerpt.at?_append_lines (offset_lt_of_tokenize_error h)]
  constructor
  · obtain ⟨f, hf, rfl⟩ := tokenize_eq_error_iff.mp h
    have hseam : glues s.toList ('\n' :: t.toList) = false :=
      glues_of_head (by rintro c ⟨⟩; rfl)
    refine tokenize_eq_error_iff.mpr ⟨f, ?_, rfl⟩
    rw [htext, lexemes_append hseam, hf]
  · unfold Diagnostic.render Diagnostic.lines
    rw [hexcerpt]

/-- A number at the end of a source, with a digit on the line behind it. -/
theorem tokenize_error_append_lines_digit :
    let d : Diagnostic :=
      ⟨.malformedNumber "1." .trailingPoint, .lex, .ofOffset 2 "a.c"⟩
    tokenize "x 1." (some "a.c") = .error d ∧
      tokenize ("x 1." ++ "\n" ++ "5 @") (some "a.c") = .error d ∧
      d.render ("x 1." ++ "\n" ++ "5 @") "a.c" = d.render "x 1." "a.c" := by
  intro d
  have h : tokenize "x 1." (some "a.c") = .error d := by decide +kernel
  exact ⟨h, tokenize_error_append_lines "x 1." "5 @" "a.c" (some "a.c") d h⟩

end MiniC
