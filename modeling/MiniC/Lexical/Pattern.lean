import MiniC.Text.Class

/-!
The shapes of text that the scanner looks for.

Each shape is found as the longest piece of its kind, and `find` gives
that piece, empty where there is none. All shapes but one are looked for
at the start of the text only (`anchored`), and what they find is a
beginning of it (`find_isPrefix`).
-/

namespace MiniC

/-- A shape of text. -/
inductive Pattern where
  /-- One given character. -/
  | char (c : Char)
  /-- One or more blanks. -/
  | blanks
  /-- A letter, and letters, digits and underscores after it. -/
  | word
  /-- An underscore, and letters, digits and underscores after it. -/
  | underscored
  /-- Digits, and a point with digits after it if both are there. -/
  | number
  /-- A point with digits after it. -/
  | leadingPoint
  /-- One or more letters, digits, underscores and points. -/
  | run
  /-- The first digits anywhere in the text. -/
  | digitsAnywhere
deriving DecidableEq

namespace Pattern

open Text

-- =============================================================== finding

/-- One given character, at the start of a text. -/
def findChar (c : Char) : List Char → List Char
  | [] => []
  | d :: _ => if d = c then [c] else []

/-- A first character of a class and the name characters after it, at the
start of a text. -/
def findName (first : Char → Bool) : List Char → List Char
  | [] => []
  | c :: s => if first c then c :: s.takeWhile isNameChar else []

/-- A point with digits after it, at the start of a text. -/
def findFraction : List Char → List Char
  | [] => []
  | c :: s =>
    let fraction := s.takeWhile Char.isDigit
    if c = '.' ∧ fraction ≠ [] then '.' :: fraction else []

/-- Digits, and a point with digits after it if both are there, at the
start of a text. -/
def findNumber (s : List Char) : List Char :=
  let whole := s.takeWhile Char.isDigit
  if whole = [] then []
  else whole ++ findFraction (s.dropWhile Char.isDigit)

/-- The part of a text that a shape matches. -/
def find (p : Pattern) (s : List Char) : List Char :=
  match p with
  | .char c => findChar c s
  | .blanks => s.takeWhile isBlank
  | .word => findName Char.isAlpha s
  | .underscored => findName (· == '_') s
  | .number => findNumber s
  | .leadingPoint => findFraction s
  | .run => s.takeWhile isRunChar
  | .digitsAnywhere =>
    (s.dropWhile (!Char.isDigit ·)).takeWhile Char.isDigit

/-- Whether a shape is looked for at the start of a text only. -/
def anchored : Pattern → Bool
  | .digitsAnywhere => false
  | _ => true

/-- Whether the shape is there. -/
def fits (p : Pattern) (s : List Char) : Bool :=
  !(p.find s).isEmpty

-- ============================================== a match is a beginning

theorem findChar_isPrefix (c : Char) (s : List Char) :
    findChar c s <+: s := by
  cases s with
  | nil => exact List.nil_prefix
  | cons d s =>
    rw [findChar]
    split
    · next h => exact List.singleton_prefix_cons_iff.mpr h.symm
    · exact List.nil_prefix

theorem findName_isPrefix (first : Char → Bool) (s : List Char) :
    findName first s <+: s := by
  cases s with
  | nil => exact List.nil_prefix
  | cons c s =>
    rw [findName]
    split
    · exact List.cons_prefix_cons.mpr ⟨rfl, List.takeWhile_prefix _⟩
    · exact List.nil_prefix

theorem findFraction_isPrefix (s : List Char) : findFraction s <+: s := by
  cases s with
  | nil => exact List.nil_prefix
  | cons c s =>
    rw [findFraction]
    split
    · next h =>
      exact List.cons_prefix_cons.mpr ⟨h.1.symm, List.takeWhile_prefix _⟩
    · exact List.nil_prefix

theorem findNumber_isPrefix (s : List Char) : findNumber s <+: s := by
  unfold findNumber
  dsimp only
  split
  · exact List.nil_prefix
  · obtain ⟨t, ht⟩ := findFraction_isPrefix (s.dropWhile Char.isDigit)
    refine ⟨t, ?_⟩
    rw [List.append_assoc, ht, List.takeWhile_append_dropWhile]

/-- What an anchored shape finds is a beginning of the text. -/
theorem find_isPrefix {p : Pattern} (h : p.anchored = true) (s : List Char) :
    p.find s <+: s := by
  cases p with
  | char c => exact findChar_isPrefix c s
  | blanks => exact List.takeWhile_prefix _
  | word => exact findName_isPrefix _ s
  | underscored => exact findName_isPrefix _ s
  | number => exact findNumber_isPrefix s
  | leadingPoint => exact findFraction_isPrefix s
  | run => exact List.takeWhile_prefix _
  | digitsAnywhere => cases h

/-- A text is what an anchored shape finds in it, and the rest. -/
theorem find_append_drop {p : Pattern} (h : p.anchored = true)
    (s : List Char) : p.find s ++ s.drop (p.find s).length = s :=
  List.prefix_iff_eq_append.mp (find_isPrefix h s)

theorem length_find_pos {p : Pattern} {s : List Char}
    (h : p.fits s = true) : 0 < (p.find s).length := by
  rw [List.length_pos_iff]
  intro hnil
  simp [fits, hnil] at h

/-- One character that fits is found as it is. -/
theorem find_char_of_fits {c : Char} {s : List Char}
    (h : (Pattern.char c).fits s = true) : (Pattern.char c).find s = [c] := by
  have hpos := length_find_pos h
  cases s with
  | nil => cases hpos
  | cons d s =>
    rw [find, findChar] at hpos ⊢
    split
    · rfl
    · next hd =>
      rw [if_neg hd] at hpos
      cases hpos

/-- The rest after a shape that fits is shorter. -/
theorem length_drop_find {p : Pattern} {s : List Char}
    (ha : p.anchored = true) (h : p.fits s = true) :
    (s.drop (p.find s).length).length < s.length := by
  have hpos := length_find_pos h
  have hle := (find_isPrefix ha s).length_le
  rw [List.length_drop]
  omega

end Pattern

end MiniC
