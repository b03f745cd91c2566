import MiniC.Proofs.Lexical.Failure

/-!
Whether the reason given for a malformed number is true of the source.

# What stands before a failure

A scan can stop between two run characters only behind a word. A number that
is read ends its run, for the rule looks one character ahead
(`stop_of_step_constant`), and all other lexemes and blanks end in no run
character. So where the text before a failure glues to the text to be blamed,
the last lexeme before it is a word (`lexemes_eq_error_seam`).

# The reason

A reason speaks of a point or a suffix of the literal, or of what stands in
front of it (`Malformation.TrueOf`). What it says of the literal is always
true. But that no digit precedes the point is said by a rule that never looks
back: it is false exactly where a name that ends in a digit stands right
before the point (`reason_of_tokenize_error`).
-/

namespace MiniC

open Text

-- ================================================== the seam of a failure

/-- Constants come from the rule for numbers, and from no number that its run
goes on behind. -/
theorem Rule.malformation?_of_verdict {r : Rule} {s : List Char} {x : Number}
    (h : r.verdict s = .token (.constant x)) :
    Rule.malformation? (r.pattern.find s)
      (s.drop (r.pattern.find s).length).head? = none := by
  cases r with
  | blanks => cases h
  | punctuator p => cases h
  | word =>
    have hword : Kind.ofWord (Pattern.word.find s) = .constant x :=
      Verdict.token.inj h
    unfold Kind.ofWord at hword
    split at hword <;> cases hword
  | underscored => cases h
  | number =>
    unfold verdict at h
    dsimp only at h
    split at h
    · cases h
    · assumption
  | leadingPoint => cases h

namespace Scan

variable {source pre pre' : List Char} {s t : Scan}

/-- No run character comes after a number that a step has read. -/
theorem stop_of_step_constant {x : Number} {l : List Char} {n : Nat}
    {ls : List Lexeme} (h : s.step Rule.all = .more t)
    (hfound : t.found = ⟨.constant x, l, n⟩ :: ls)
    (hnew : t.found ≠ s.found) : ∀ c ∈ t.rest.head?, isRunChar c = false := by
  unfold step at h
  split at h
  · cases h
  · next hrest =>
    split at h
    · next r hr =>
      rw [rest_of_apply h]
      unfold apply at h
      dsimp only at h
      split at h
      · cases h
        exact absurd rfl hnew
      · next k hk =>
        cases h
        obtain rfl : k = .constant x :=
          congrArg Lexeme.kind (List.cons.inj hfound).1
        exact stop_of_malformation? (Rule.malformation?_of_verdict hk)
      · cases h
    · cases h

/-- Where the text before a place glues to the text ahead, it ends in a word,
and that is the lexeme found last. -/
def Seam (pre : List Char) (s : Scan) : Prop :=
  glues pre s.rest = true → ∃ p l ls, pre = p ++ l ∧ IsWord l ∧
    s.found = ⟨Kind.ofWord l, l, size p⟩ :: ls

/-- A step leaves such a seam, whatever was before. -/
theorem Reached.seam_of_step (h : Reached source pre s)
    (h' : Reached source pre' t) (hstep : s.step Rule.all = .more t) :
    Seam pre' t := by
  intro hseam
  have hsource : pre ++ s.rest = pre' ++ t.rest := by
    rw [← h.source, ← h'.source]
  cases outcome_of_step hstep with
  | @skip w v hrest hne hblank =>
    -- a seam behind blanks does not glue
    rw [hrest, ← List.append_assoc] at hsource
    rw [← List.append_cancel_right hsource, glues_append_left pre hne,
      glues_blanks_left hblank] at hseam
    cases hseam
  | @read k l v hrest hk _ =>
    rw [hrest, ← List.append_assoc] at hsource
    obtain rfl : pre ++ l = pre' := List.append_cancel_right hsource
    rw [glues_append_left pre hk.ne_nil] at hseam
    refine ⟨pre, l, s.found, rfl, ?_⟩
    rw [← h.offset]
    cases hk with
    | punctuator p =>
      rw [glues_of_getLast (by rintro c ⟨⟩; exact p.isRunChar_char)] at hseam
      cases hseam
    | keyword k => exact ⟨k.isWord, by rw [Kind.ofWord_word]⟩
    | identifier hw hne => exact ⟨hw, by rw [Kind.ofWord_of_ne hne]⟩
    | constant hn =>
      have hstop := stop_of_step_constant hstep rfl (List.cons_ne_self _ _)
      rw [glues_of_head hstop] at hseam
      cases hseam

end Scan

/-- The text before a fault, the text to be blamed, and the word between them
where they glue. -/
theorem lexemes_eq_error_seam {s : List Char} {f : Fault}
    (h : lexemes s = .error f) :
    ∃ pre v ls, s = pre ++ v ∧ f.offset = size pre ∧ lexemes pre = .ok ls ∧
      Blames v f.failure ∧
      (glues pre v = true → ∃ p l, pre = p ++ l ∧ IsWord l ∧
        ls.getLast? = some ⟨Kind.ofWord l, l, size p⟩) := by
  let Inv (t : Scan) : Prop :=
    ∃ pre, Scan.Reached s pre t ∧ Scan.Seam pre t
  have hstart : Inv (Scan.start s) := by
    refine ⟨[], Scan.reached_start s, fun hseam => ?_⟩
    rw [glues_nil_left] at hseam
    cases hseam
  have hkeep : ∀ t u, Inv t → t.step Rule.all = .more u → Inv u := by
    rintro t u ⟨pre, ht, -⟩ hstep
    obtain ⟨pre', hu⟩ := ht.step hstep
    exact ⟨pre', hu, ht.seam_of_step hu hstep⟩
  obtain ⟨t, ⟨pre, ht, hseam⟩, hoffset, hblame⟩ :=
    Scan.exists_of_lexemes_eq_error h Inv hkeep hstart
  refine ⟨pre, t.rest, _, ht.source, hoffset.trans ht.offset, ht.found,
    hblame, fun hg => ?_⟩
  obtain ⟨p, l, ls, hpre, hword, hfound⟩ := hseam hg
  refine ⟨p, l, hpre, hword, ?_⟩
  rw [hfound, List.reverse_cons, List.getLast?_concat]

-- ============================================================= the reason

/-- What a reason says of a literal between two texts. -/
def Malformation.TrueOf (before literal after : List Char) :
    Malformation → Prop
  | .trailingPoint => ∃ a b, literal = a ++ '.' :: b ∧
      ∀ c ∈ (b ++ after).head?, c.isDigit = false
  | .secondPoint => 2 ≤ literal.count '.'
  | .missingWhole => ∀ c ∈ before.getLast?, c.isDigit = false
  | .nameSuffix => ∃ a c d b, literal = a ++ c :: d :: b ∧
      c.isDigit = true ∧ (d.isAlpha = true ∨ d = '_')

theorem IsNumber.exists_concat {d : List Char} (h : IsNumber d) :
    ∃ a c, d = a ++ [c] ∧ c.isDigit = true := by
  have hlast : ∀ {a : List Char}, IsDigits a →
      ∃ b c, a = b ++ [c] ∧ c.isDigit = true := fun {a} ha =>
    ⟨a.dropLast, a.getLast ha.1, (List.dropLast_append_getLast ha.1).symm,
      ha.2 _ (List.getLast_mem ha.1)⟩
  obtain ⟨a, b, rfl, ha, rfl | ⟨ds, rfl, hds⟩⟩ := h
  · rw [List.append_nil]
    exact hlast ha
  · obtain ⟨e, c, rfl, hc⟩ := hlast hds
    exact ⟨a ++ '.' :: e, c, by simp, hc⟩

/-- What is wrong with a number is true of the run that it starts. -/
theorem Malformation.Holds.trueOf {d v : List Char} {reason : Malformation}
    (hd : IsNumber d) (h : reason.Holds d v) (before : List Char) :
    reason.TrueOf before ((d ++ v).takeWhile isRunChar)
      (v.dropWhile isRunChar) := by
  rw [List.takeWhile_append_of_pos hd.forall_isRunChar]
  cases h with
  | @secondPoint v hp =>
    have hone := List.count_pos_iff.mpr hp
    rw [List.takeWhile_cons_of_pos rfl, TrueOf, List.count_append,
      List.count_cons_self]
    omega
  | @trailingPoint v _ hnext =>
    rw [List.takeWhile_cons_of_pos rfl, List.dropWhile_cons_of_pos rfl]
    refine ⟨d, v.takeWhile isRunChar, rfl, ?_⟩
    rwa [List.takeWhile_append_dropWhile]
  | @nameSuffix c v hc =>
    obtain ⟨a, e, rfl, he⟩ := hd.exists_concat
    have hrun : isRunChar c = true := by
      rcases hc with halpha | rfl
      · exact isRunChar_of_isNameChar (isNameChar_of_isAlpha halpha)
      · rfl
    rw [List.takeWhile_cons_of_pos hrun]
    exact ⟨a, e, c, v.takeWhile isRunChar, by simp, he, hc⟩

/-- No keyword ends in a digit, so a word that does is a name. -/
theorem Kind.ofWord_of_getLast? {l : List Char} {c : Char}
    (hc : c ∈ l.getLast?) (hdigit : c.isDigit = true) :
    Kind.ofWord l = .identifier (String.ofList l) := by
  refine Kind.ofWord_of_ne ?_
  rintro k rfl
  have hletter : k.word.toList.getLast?.any Char.isDigit = false := by
    cases k <;> rfl
  rw [Option.mem_def.mp hc, Option.any_some, hdigit] at hletter
  cases hletter

/-- The literal of a malformed number stands in the source where the failure
is placed, and the text before it has tokens. The reason is true of it, but
for one case: a point is said to have no digit before it where the last token
of the text before is a name that ends in one. -/
theorem reason_of_tokenize_error (s : String) (file : Option String)
    (d : Diagnostic) (literal : String) (reason : Malformation)
    (h : tokenize s file = .error d)
    (hd : d.failure = .malformedNumber literal reason)
    (hsize : size s.toList < UInt32.size) :
    ∃ before after ts, s.toList = before ++ literal.toList ++ after ∧
      size before = d.position.offset.toNat ∧
      tokenize (String.ofList before) file = .ok ts ∧
      (¬ reason.TrueOf before literal.toList after ↔
        reason = .missingWhole ∧ ∃ p name, before = p ++ name.toList ∧
          (∃ c ∈ name.toList.getLast?, c.isDigit = true) ∧
          ts.getLast? = some ⟨.identifier name, .ofOffset (size p)
            (size name.toList) (file.getD unnamedFile)⟩) := by
  obtain ⟨f, hf, rfl⟩ := tokenize_eq_error_iff.mp h
  obtain ⟨pre, v, ls, hs, hoffset, hls, hblame, hword⟩ :=
    lexemes_eq_error_seam hf
  rw [show f.failure = .malformedNumber literal reason from hd] at hblame
  have hplace : size pre = (f.offset % UInt32.size) := by
    rw [hs, size_append] at hsize
    rw [hoffset, Nat.mod_eq_of_lt (by omega)]
  have htokens : tokenize (String.ofList pre) file = .ok _ :=
    tokenize_eq_ok_iff.mpr ⟨ls, by rw [String.toList_ofList, hls], rfl⟩
  have hliteral : v = literal.toList ++ v.dropWhile isRunChar := by
    have happ := List.takeWhile_append_dropWhile (p := isRunChar) (l := v)
    cases hblame <;> rw [String.toList_ofList, happ]
  refine ⟨pre, v.dropWhile isRunChar, _, ?_, ?_, htokens, ?_⟩
  · rw [List.append_assoc, ← hliteral]
    exact hs
  · rw [Fault.diagnostic, Position.toNat_offset_ofOffset, hplace]
  cases hblame with
  | @number e w _ hlong hreason =>
    have htrue := hreason.trueOf hlong.holds pre
    rw [String.toList_ofList,
      List.dropWhile_append_of_pos hlong.holds.forall_isRunChar]
    refine ⟨fun hfalse => absurd htrue hfalse, ?_⟩
    rintro ⟨rfl, -⟩
    cases hreason
  | @leadingPoint c w hc =>
    dsimp only [Malformation.TrueOf]
    constructor
    · intro hfalse
      obtain ⟨e, he, hdigit⟩ : ∃ e ∈ pre.getLast?, e.isDigit = true := by
        simpa using hfalse
      have hglues : glues pre ('.' :: c :: w) = true := by
        rw [glues, show pre.getLast? = some e from he, Option.any_some,
          isRunChar_of_isDigit hdigit]
        rfl
      obtain ⟨p, l, rfl, hl, hlast⟩ := hword hglues
      have hne : l ≠ [] := Pattern.Matches.ne_nil (p := .word) hl
      rw [List.getLast?_append_of_ne_nil p hne] at he
      refine ⟨rfl, p, String.ofList l, by rw [String.toList_ofList],
        ⟨e, by rwa [String.toList_ofList], hdigit⟩, ?_⟩
      rw [List.getLast?_map, hlast, Kind.ofWord_of_getLast? he hdigit,
        String.toList_ofList]
      rfl
    · rintro ⟨-, p, name, rfl, ⟨e, he, hdigit⟩, -⟩ hnone
      have hne : name.toList ≠ [] := by
        rintro hnil
        rw [hnil] at he
        cases he
      rw [hnone e (by rwa [List.getLast?_append_of_ne_nil p hne])] at hdigit
      cases hdigit

/-- A name that ends in a digit is before the point, but not right before. -/
theorem reason_of_tokenize_error_parenthesis :
    let s := "f(x1).5_"
    let d : Diagnostic :=
      ⟨.malformedNumber ".5_" .missingWhole, .lex, .ofOffset 5 "a.c"⟩
    tokenize s (some "a.c") = .error d ∧ size s.toList < UInt32.size ∧
      ∃ before after ts, s.toList = before ++ ".5_".toList ++ after ∧
        size before = 5 ∧
        tokenize (String.ofList before) (some "a.c") = .ok ts ∧
        (¬ Malformation.missingWhole.TrueOf before ".5_".toList after ↔
          ∃ p name, before = p ++ name.toList ∧
            (∃ c ∈ name.toList.getLast?, c.isDigit = true) ∧
            ts.getLast? = some ⟨.identifier name, .ofOffset (size p)
              (size name.toList) "a.c"⟩) := by
  intro s d
  have h : tokenize s (some "a.c") = .error d := by decide +kernel
  have hsize : size s.toList < UInt32.size := by decide
  obtain ⟨before, after, ts, hs, hplace, hts, htrue⟩ :=
    reason_of_tokenize_error s (some "a.c") d ".5_" .missingWhole h rfl hsize
  refine ⟨h, hsize, before, after, ts, hs, hplace, hts, htrue.trans ?_⟩
  exact and_iff_right rfl

/-- The point of a number without a whole part has a digit before it, the
last of a name. -/
theorem missing_whole_behind_digit :
    let s := "x1.5"
    let d : Diagnostic :=
      ⟨.malformedNumber ".5" .missingWhole, .lex, .ofOffset 2 "shell"⟩
    tokenize s none = .error d ∧
      Malformation.missingWhole.describe
        = "decimal point is not preceded by a digit" ∧
      size s.toList < UInt32.size ∧
      s.toList = ['x', '1'] ++ ".5".toList ++ [] ∧
      size ['x', '1'] = d.position.offset.toNat ∧
      ¬ Malformation.missingWhole.TrueOf ['x', '1'] ".5".toList [] := by
  intro s d
  have h : tokenize s none = .error d := by decide +kernel
  refine ⟨h, rfl, by decide, by decide, by decide, fun htrue => ?_⟩
  exact absurd (htrue '1' rfl) (by decide)

end MiniC
