import MiniC.Options.Basic

/-!
The name of a file in its path.

# Names

A path leads to a name if it ends with it, up to pieces that name nothing:
empty ones and `.`, each behind a slash (`Path.LeadsTo`). The name is a whole
piece of the path, so what stands before it ends with a slash. Among the
pieces of the path it is the last that names something, and the last that
does is such a name, unless it is `..` (`Path.fileName?_eq_some_iff`). Hence
there is at most one.

# Normal forms

That the places of a source carry a normal form is read off this description.
A name leads to itself, and a path leads to its name with more pieces behind
it that name nothing. A path that leads nowhere is kept whole.
-/

namespace MiniC

namespace Path

-- ================================================================= names

/-- Pieces that name nothing, each with the slash before it. -/
def IsIdle (s : List Char) : Prop :=
  ∃ ps : List (List Char), s = ps.flatMap ('/' :: ·) ∧
    ∀ p ∈ ps, p = [] ∨ p = ['.']

/-- A piece that names something, and not the directory above. -/
structure IsFileName (name : List Char) : Prop where
  ne_nil : name ≠ []
  slash_not_mem : '/' ∉ name
  ne_dot : name ≠ ['.']
  ne_dots : name ≠ ['.', '.']

/-- A path ends with a name that is a whole piece of it, and pieces behind
that name nothing. -/
def LeadsTo (path name : List Char) : Prop :=
  IsFileName name ∧ ∃ before after, path = before ++ name ++ after ∧
    (before = [] ∨ before.getLast? = some '/') ∧ IsIdle after

variable {path name after s t : List Char}

theorem IsIdle.append (hs : IsIdle s) (ht : IsIdle t) : IsIdle (s ++ t) := by
  obtain ⟨ps, rfl, hps⟩ := hs
  obtain ⟨qs, rfl, hqs⟩ := ht
  exact ⟨ps ++ qs, List.flatMap_append.symm,
    List.forall_mem_append.mpr ⟨hps, hqs⟩⟩

theorem IsFileName.leadsTo_self (h : IsFileName name) : LeadsTo name name :=
  ⟨h, [], [], (List.append_nil name).symm, Or.inl rfl, [], rfl,
    List.forall_mem_nil _⟩

theorem LeadsTo.append_idle (h : LeadsTo path name) (hafter : IsIdle after) :
    LeadsTo (path ++ after) name := by
  obtain ⟨hname, before, idle, rfl, hbefore, hidle⟩ := h
  exact ⟨hname, before, idle ++ after, List.append_assoc _ _ _,
    hbefore, hidle.append hafter⟩

-- ================================================================ pieces

theorem slash_not_mem_of_mem_pieces {p : List Char} (h : p ∈ pieces path) :
    '/' ∉ p := by
  induction path generalizing p with
  | nil =>
    rw [List.mem_singleton.mp h]
    exact List.not_mem_nil
  | cons c path ih =>
    unfold pieces at h ih
    obtain ⟨q, qs, hsplit⟩ :=
      List.exists_cons_of_ne_nil (List.splitOn_ne_nil '/' path)
    rw [List.splitOn_cons_eq_if_modifyHead, hsplit] at h
    rw [hsplit] at ih
    split at h
    · rcases List.mem_cons.mp h with rfl | htail
      · exact List.not_mem_nil
      · exact ih htail
    · next hc =>
      rcases List.mem_cons.mp h with rfl | htail
      · have hne : '/' ≠ c := fun heq => hc (beq_iff_eq.mpr heq.symm)
        exact List.not_mem_cons_of_ne_of_not_mem hne (ih List.mem_cons_self)
      · exact ih (List.mem_cons_of_mem q htail)

/-- Pieces with slashes between them, from the first on. -/
theorem intercalate_cons (p : List Char) (ps : List (List Char)) :
    ['/'].intercalate (p :: ps) = p ++ ps.flatMap ('/' :: ·) := by
  induction ps generalizing p with
  | nil => simp
  | cons q ps ih =>
    rw [List.intercalate_cons_cons, ih, List.flatMap_cons, List.append_assoc,
      List.singleton_append, List.cons_append]

/-- A piece of a path stands behind a slash or at the start, and the pieces
after it stand behind their slashes. -/
theorem exists_before_of_pieces {ps qs : List (List Char)}
    (h : pieces path = ps ++ name :: qs) :
    ∃ before, path = before ++ name ++ qs.flatMap ('/' :: ·) ∧
      (before = [] ∨ before.getLast? = some '/') := by
  have hpath : path = ['/'].intercalate (ps ++ name :: qs) := by
    rw [← h, pieces, List.intercalate_splitOn]
  clear h
  induction ps generalizing path with
  | nil => exact ⟨[], hpath.trans (intercalate_cons name qs), Or.inl rfl⟩
  | cons p ps ih =>
    rw [List.cons_append, List.intercalate_cons_of_ne_nil (by simp)] at hpath
    obtain ⟨before, hrest, hbefore⟩ := ih rfl
    refine ⟨p ++ ['/'] ++ before, ?_, Or.inr ?_⟩
    · rw [hpath, hrest]
      simp only [List.append_assoc]
    · rcases hbefore with rfl | hlast
      · simp
      · rw [List.getLast?_append, hlast]
        rfl

theorem pieces_of_leadsTo (h : LeadsTo path name) :
    ∃ ps qs, pieces path = ps ++ name :: qs ∧ ∀ q ∈ qs, q = [] ∨ q = ['.'] := by
  obtain ⟨hname, before, after, rfl, hbefore, qs, rfl, hqs⟩ := h
  have hfree : ∀ p ∈ name :: qs, '/' ∉ p := by
    refine List.forall_mem_cons.mpr ⟨hname.slash_not_mem, fun q hq => ?_⟩
    rcases hqs q hq with rfl | rfl <;> decide
  have htail : pieces (name ++ qs.flatMap ('/' :: ·)) = name :: qs := by
    rw [← intercalate_cons, pieces,
      List.splitOn_intercalate '/' hfree (List.cons_ne_nil name qs)]
  rcases hbefore with rfl | hlast
  · exact ⟨[], qs, htail, hqs⟩
  · obtain ⟨dir, rfl⟩ := List.getLast?_eq_some_iff.mp hlast
    refine ⟨pieces dir, qs, ?_, hqs⟩
    rw [List.append_assoc, List.append_assoc, List.singleton_append, pieces,
      List.splitOn_append_cons_self]
    exact congrArg (pieces dir ++ ·) htail

-- ============================================================ file names

theorem isStep_eq_false_iff {p : List Char} :
    isStep p = false ↔ p = [] ∨ p = ['.'] := by
  unfold isStep
  rw [Bool.and_eq_false_iff, Bool.not_eq_false', List.isEmpty_iff,
    bne_eq_false_iff_eq]

/-- The last piece that is a step has only pieces behind it that are none. -/
theorem getLast?_steps_eq_some_iff :
    ((pieces path).filter isStep).getLast? = some name ↔
      isStep name = true ∧ ∃ ps qs, pieces path = ps ++ name :: qs ∧
        ∀ q ∈ qs, q = [] ∨ q = ['.'] := by
  rw [List.getLast?_filter, List.find?_eq_some_iff_append]
  refine and_congr_right fun _ => ?_
  simp only [Bool.not_eq_true', isStep_eq_false_iff]
  constructor
  · rintro ⟨qs, ps, hrev, hqs⟩
    refine ⟨ps.reverse, qs.reverse, ?_, ?_⟩
    · rw [← List.reverse_reverse (pieces path), hrev, List.reverse_append,
        List.reverse_cons, List.append_assoc, List.singleton_append]
    · exact fun q hq => hqs q (List.mem_reverse.mp hq)
  · rintro ⟨ps, qs, hpieces, hqs⟩
    refine ⟨qs.reverse, ps.reverse, ?_, ?_⟩
    · rw [hpieces, List.reverse_append, List.reverse_cons, List.append_assoc,
        List.singleton_append]
    · exact fun q hq => hqs q (List.mem_reverse.mp hq)

theorem fileName?_eq_some_iff_getLast? :
    fileName? path = some name ↔
      ((pieces path).filter isStep).getLast? = some name ∧
        name ≠ ['.', '.'] := by
  unfold fileName?
  cases ((pieces path).filter isStep).getLast? with
  | none => simp
  | some last =>
    dsimp only
    split
    · next hdots =>
      constructor
      · intro h
        cases h
      · rintro ⟨⟨⟩, hne⟩
        exact absurd hdots hne
    · next hdots =>
      constructor
      · rintro ⟨⟩
        exact ⟨rfl, hdots⟩
      · exact fun h => h.1

/-- The file name of a path is the name that it leads to. -/
theorem fileName?_eq_some_iff :
    fileName? path = some name ↔ LeadsTo path name := by
  rw [fileName?_eq_some_iff_getLast?, getLast?_steps_eq_some_iff]
  constructor
  · rintro ⟨⟨hstep, ps, qs, hpieces, hqs⟩, hdots⟩
    have hmem : name ∈ pieces path := by
      rw [hpieces]
      exact List.mem_append_right ps List.mem_cons_self
    have hnot : ¬(name = [] ∨ name = ['.']) := by
      rw [← isStep_eq_false_iff, hstep]
      exact Bool.noConfusion
    obtain ⟨before, hpath, hbefore⟩ := exists_before_of_pieces hpieces
    exact ⟨⟨fun h => hnot (Or.inl h), slash_not_mem_of_mem_pieces hmem,
      fun h => hnot (Or.inr h), hdots⟩, before, _, hpath, hbefore, qs, rfl, hqs⟩
  · intro h
    have hname := h.1
    have hstep : isStep name = true := by
      rw [← Bool.not_eq_false, isStep_eq_false_iff]
      exact not_or.mpr ⟨hname.ne_nil, hname.ne_dot⟩
    exact ⟨⟨hstep, pieces_of_leadsTo h⟩, hname.ne_dots⟩

-- =========================================================== normal forms

theorem LeadsTo.inputName_eq {path : String} (h : LeadsTo path.toList name) :
    inputName path = String.ofList name := by
  rw [inputName_eq_getD, fileName?_eq_some_iff.mpr h]
  rfl

theorem inputName_of_fileName?_eq_none {path : String}
    (h : fileName? path.toList = none) : inputName path = path := by
  rw [inputName_eq_getD, h]
  rfl

/-- A path has a name that it leads to, or is its own input name. -/
theorem inputName_cases (path : String) :
    fileName? path.toList = none ∧ inputName path = path ∨
      ∃ name, LeadsTo path.toList name ∧ inputName path = String.ofList name := by
  cases h : fileName? path.toList with
  | none => exact Or.inl ⟨rfl, inputName_of_fileName?_eq_none h⟩
  | some name =>
    have hleads := fileName?_eq_some_iff.mp h
    exact Or.inr ⟨name, hleads, hleads.inputName_eq⟩

theorem inputName_inputName (path : String) :
    inputName (inputName path) = inputName path := by
  rcases inputName_cases path with ⟨-, hname⟩ | ⟨name, hleads, hname⟩
  · rw [hname, hname]
  · have hself : LeadsTo (String.ofList name).toList name := by
      rw [String.toList_ofList]
      exact hleads.1.leadsTo_self
    rw [hname, hself.inputName_eq]

theorem inputName_eq_empty_iff {path : String} :
    inputName path = "" ↔ path = "" := by
  constructor
  · intro h
    rcases inputName_cases path with ⟨-, hname⟩ | ⟨name, hleads, hname⟩
    · rw [← hname, h]
    · have hnil : (String.ofList name).toList = [] := by
        rw [← hname, h]
        rfl
      rw [String.toList_ofList] at hnil
      exact absurd hnil hleads.1.ne_nil
  · rintro rfl
    rfl

end Path

/-- The name that the places of a source carry is a normal form of the path
of the source. It is missing only if the path is, and it is its own. A path
that has a file name leads to it, keeps it with any pieces behind that name
nothing, and carries it; a path that has none carries itself. -/
theorem inputName_normal (o : Options) :
    (o.inputName = "" ↔ o.input = "") ∧
    { o with input := o.inputName }.inputName = o.inputName ∧
    (Path.fileName? o.input.toList = none ∧ o.inputName = o.input ∨
      ∃ name, Path.fileName? o.input.toList = some name ∧
        Path.LeadsTo o.input.toList name ∧
        o.inputName = String.ofList name) ∧
    ∀ after, (Path.fileName? o.input.toList).isSome = true →
      Path.IsIdle after →
        { o with input := o.input ++ String.ofList after }.inputName
          = o.inputName := by
  refine ⟨Path.inputName_eq_empty_iff, Path.inputName_inputName o.input, ?_,
    ?_⟩
  · rcases Path.inputName_cases o.input with hnone | ⟨name, hleads, hname⟩
    · exact Or.inl hnone
    · exact Or.inr ⟨name, Path.fileName?_eq_some_iff.mpr hleads, hleads, hname⟩
  · intro after hsome hidle
    obtain ⟨name, hname⟩ := Option.isSome_iff_exists.mp hsome
    have hleads := Path.fileName?_eq_some_iff.mp hname
    have hmore : Path.LeadsTo (o.input ++ String.ofList after).toList name := by
      rw [String.toList_append, String.toList_ofList]
      exact hleads.append_idle hidle
    exact hmore.inputName_eq.trans hleads.inputName_eq.symm

/-- A path with a name, and with more slashes and dots behind it. -/
theorem inputName_normal_dotted :
    let o : Options := ⟨some .lex, "out.s", "../src//main.c/"⟩
    (Path.fileName? o.input.toList).isSome = true ∧
      Path.IsIdle "/.//".toList ∧
      { o with input := "../src//main.c//.//" }.inputName = o.inputName ∧
      o.inputName = "main.c" := by
  intro o
  have hsome : (Path.fileName? o.input.toList).isSome = true := by
    decide +kernel
  have hidle : Path.IsIdle "/.//".toList :=
    ⟨[['.'], [], []], by decide +kernel, by simp⟩
  obtain ⟨-, -, -, hkept⟩ := inputName_normal o
  exact ⟨hsome, hidle, hkept "/.//".toList hsome hidle, by decide +kernel⟩

end MiniC
