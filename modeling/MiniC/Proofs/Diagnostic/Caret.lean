import MiniC.Proofs.Diagnostic.Excerpt

/-!
What the arrow of an excerpt points at.

The caret stands as many columns behind the bar as the character at the
place does (`getElem?_numbered_caret`), so it points at that character, if
it is shown. It always is where the line goes on, from the place, with
anything but space. But the end of the line is trimmed of every space there
is, and the scan knows four blanks only: a failure at another space, with
nothing but space behind it, is trimmed away, and the caret points past the
end of the text (`caret_of_tokenize_error`).
-/

namespace MiniC

open Text

namespace Excerpt

variable {e : Excerpt} {pre v : List Char} {c : Char}

-- ============================================================== the caret

theorem idxOf_caret (e : Excerpt) :
    e.arrow.idxOf '^' = (Numeric.digits e.line).length + 3 + e.dashes := by
  have hnot : '^' ∉ e.bar ++ ' ' :: List.replicate e.dashes '-' := by
    unfold bar
    simp
  unfold arrow
  rw [List.idxOf_append_of_notMem hnot]
  unfold bar
  simp
  omega

/-- The caret is as far behind the number as the arrow is long. -/
theorem getElem?_numbered_caret (e : Excerpt) :
    e.numbered[e.arrow.idxOf '^']? = e.text[e.dashes]? := by
  have hwidth : (Numeric.digits e.line ++ [' ', '|', ' ']).length
      = (Numeric.digits e.line).length + 3 := by simp
  rw [idxOf_caret]
  unfold numbered
  rw [List.getElem?_append_right (by omega), hwidth, Nat.add_sub_cancel_left]

/-- The text of an excerpt has the character of the place at the end of the
arrow, unless the line has nothing but space from there on. -/
theorem Shows.getElem?_text (h : e.Shows pre (c :: v))
    (hc : isBlank c = false) :
    e.text[e.dashes]?
      = if ((c :: v).takeWhile (· != '\n')).all isSpace then none
        else some c := by
  have hlength : e.dashes = ((lastLine pre).dropWhile isIndent).length := by
    have happ := congrArg List.length (List.takeWhile_append_dropWhile
      (p := isIndent) (l := lastLine pre))
    rw [h.dashes, length_takeWhile_currentLine hc]
    rw [List.length_append] at happ
    omega
  have hfirst : (c :: v).takeWhile (· != '\n')
      = c :: v.takeWhile (· != '\n') :=
    List.takeWhile_cons_of_pos (by simpa using ne_feed_of_isBlank hc)
  rw [h.text, dropWhile_currentLine hc, hlength, hfirst]
  exact getElem?_trimEnd _ c _

-- ============================================================== the lines

theorem feed_not_mem_arrow (e : Excerpt) : '\n' ∉ e.arrow := by
  unfold arrow bar
  simp

theorem Shows.feed_not_mem_numbered (h : e.Shows pre v) :
    '\n' ∉ e.numbered := by
  have hline : '\n' ∉ currentLine pre v := by
    unfold currentLine
    rw [List.mem_append]
    intro hmem
    rcases hmem with hmem | hmem
    · exact feed_not_mem_lastLine pre hmem
    · have hfeed := List.mem_takeWhile_imp hmem
      simp at hfeed
  have htext : '\n' ∉ e.text := by
    intro hmem
    rw [h.text] at hmem
    exact hline ((List.dropWhile_sublist _).mem ((trimEnd_isPrefix _).mem hmem))
  have hdigits := Numeric.not_mem_digits (x := '\n') (by decide) e.line
  unfold numbered
  simp [htext, hdigits]

end Excerpt

-- ============================================================ the failure

/-- The line of the source and the arrow are the last lines. -/
theorem Diagnostic.exists_toList_render {d : Diagnostic} {s : String}
    {e : Excerpt} (he : d.excerpt? s.toList = some e) (path : String) :
    ∃ before, (d.render s path).toList
      = before ++ '\n' :: e.numbered ++ '\n' :: e.arrow ++ ['\n'] := by
  refine ⟨(d.report.toList :: d.note?.toList
    ++ [e.location path.toList]).flatMap (· ++ ['\n']) ++ e.bar, ?_⟩
  rw [d.toList_render he path]
  unfold Excerpt.lines
  simp only [List.cons_append, List.flatMap_cons, List.flatMap_append,
    List.flatMap_nil, List.append_assoc, List.nil_append, List.append_nil]

/-- The last line of what is shown for a failed scan has a caret, and the
line above it is that of the failure. Above the caret is the first character
of the text to be blamed, unless the source has nothing but space from there
to the end of the line: then the line above ends before the caret. -/
theorem caret_of_tokenize_error (s path : String) (file : Option String)
    (d : Diagnostic) (h : tokenize s file = .error d)
    (hsize : size s.toList < UInt32.size)
    (hfile : file ≠ some Position.nullFile) :
    ∃ pre c v before text shown arrow, s.toList = pre ++ c :: v ∧
      size pre = d.position.offset.toNat ∧ Blames (c :: v) d.failure ∧
      (d.render s path).toList
        = before ++ '\n' :: shown ++ '\n' :: arrow ++ ['\n'] ∧
      '\n' ∉ shown ∧ '\n' ∉ arrow ∧
      shown = Numeric.digits (1 + pre.count '\n') ++ [' ', '|', ' '] ++ text ∧
      '^' ∈ arrow ∧
      shown[arrow.idxOf '^']?
        = if ((c :: v).takeWhile (· != '\n')).all isSpace then none
          else some c := by
  obtain ⟨pre, c, v, e, hs, hplace, -, hc, hblame, he, hshows⟩ :=
    exists_excerpt_of_tokenize_error h hsize hfile
  obtain ⟨before, hrender⟩ := d.exists_toList_render he path
  refine ⟨pre, c, v, before, e.text, e.numbered, e.arrow, hs, hplace, hblame,
    hrender, hshows.feed_not_mem_numbered, e.feed_not_mem_arrow, ?_, ?_, ?_⟩
  · rw [← hshows.line]
    rfl
  · unfold Excerpt.arrow
    simp
  · rw [e.getElem?_numbered_caret, hshows.getElem?_text hc]

/-- A failure of more than one byte, behind an indentation and in front of
space that is trimmed. -/
theorem caret_of_tokenize_error_accent :
    let s := "int\n  x é\x0c\r\n"
    let d : Diagnostic := ⟨.unknownCharacter "é", .lex, .ofOffset 8 "a.c"⟩
    tokenize s (some "a.c") = .error d ∧ size s.toList < UInt32.size ∧
      some "a.c" ≠ some Position.nullFile ∧
      d.render s "a.c" = "Fatal error during lexing: unknown character: " ++
        "\"é\"\n-> a.c:2:5\n  |\n2 | x é\n  | --^\n" ∧
      ∃ pre c v before shown arrow, s.toList = pre ++ c :: v ∧
        size pre = 8 ∧
        (d.render s "a.c").toList
          = before ++ '\n' :: shown ++ '\n' :: arrow ++ ['\n'] ∧
        shown[arrow.idxOf '^']?
          = if ((c :: v).takeWhile (· != '\n')).all isSpace then none
            else some c := by
  intro s d
  have h : tokenize s (some "a.c") = .error d := by decide +kernel
  have hsize : size s.toList < UInt32.size := by decide
  have hfile : some "a.c" ≠ some Position.nullFile := by decide
  obtain ⟨pre, c, v, before, -, shown, arrow, hs, hplace, -, hrender, -, -, -,
    -, hcaret⟩ := caret_of_tokenize_error s "a.c" (some "a.c") d h hsize hfile
  exact ⟨h, hsize, hfile, by decide +kernel, pre, c, v, before, shown, arrow,
    hs, hplace, hrender, hcaret⟩

/-- A vertical tab at the end of a line is a failure, and it is trimmed: the
line ends before the caret. -/
theorem caret_past_vertical_tab :
    let s := "x\x0b\n"
    let d : Diagnostic :=
      ⟨.unknownCharacter "\x0b", .lex, .ofOffset 1 "shell"⟩
    let shown := "1 | x"
    let arrow := "  | -^"
    tokenize s none = .error d ∧
      d.render s "main.c" = "Fatal error during lexing: unknown character: " ++
        "\"\\u\x7bb\x7d\"\n-> main.c:1:2\n  |\n" ++ shown ++ "\n" ++ arrow
        ++ "\n" ∧
      shown.toList[arrow.toList.idxOf '^']? = none ∧
      s.toList[1]? = some '\x0b' := by
  decide +kernel

end MiniC
