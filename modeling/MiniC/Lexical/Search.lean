import MiniC.Lexical.Pattern

/-!
Searches: whatever can be looked for in a text.

A search finds one piece of a text or none. Which one is its own affair; what
it finds is a piece of the text that it looks in (`Search.isPrefix`). One that
is anchored finds nothing but beginnings. The shapes of the lexical grammar are
searches, and those that are looked for at the start of a text only are
anchored (`Pattern.anchored_search`).
-/

namespace MiniC

/-- Looks for a piece of a text: what stands before the piece, and the piece. -/
structure Search where
  find? : List Char → Option (List Char × List Char)
  isPrefix : ∀ {s before text : List Char},
    find? s = some (before, text) → before ++ text <+: s

namespace Search

/-- Whether only beginnings of a text are found. -/
def Anchored (r : Search) : Prop :=
  ∀ s before text, r.find? s = some (before, text) → before = []

/-- The piece that is found, empty where there is none. -/
def text (r : Search) (s : List Char) : List Char :=
  ((r.find? s).map Prod.snd).getD []

theorem Anchored.text_isPrefix {r : Search} (h : r.Anchored)
    (s : List Char) : r.text s <+: s := by
  unfold text
  cases hfind : r.find? s with
  | none => exact List.nil_prefix
  | some found =>
    obtain ⟨before, text⟩ := found
    have hprefix := r.isPrefix hfind
    rwa [h s before text hfind, List.nil_append] at hprefix

end Search

namespace Pattern

/-- What stands before the piece that a shape finds. -/
def before : Pattern → List Char → List Char
  | .digitsAnywhere, s => s.takeWhile (!Char.isDigit ·)
  | _, _ => []

theorem before_of_anchored {p : Pattern} (h : p.anchored = true)
    (s : List Char) : p.before s = [] := by
  cases p with
  | digitsAnywhere => cases h
  | _ => rfl

theorem before_append_find_isPrefix (p : Pattern) (s : List Char) :
    p.before s ++ p.find s <+: s := by
  cases h : p.anchored with
  | true =>
    rw [before_of_anchored h, List.nil_append]
    exact find_isPrefix h s
  | false =>
    cases p with
    | digitsAnywhere =>
      have happ :=
        List.takeWhile_append_dropWhile (p := (!Char.isDigit ·)) (l := s)
      have hdigits := (List.prefix_append_right_inj
        (s.takeWhile (!Char.isDigit ·))).mpr
        (List.takeWhile_prefix (l := s.dropWhile (!Char.isDigit ·))
          Char.isDigit)
      rwa [happ] at hdigits
    | _ => cases h

/-- A shape as a search. -/
def search (p : Pattern) : Search where
  find? s := if p.fits s then some (p.before s, p.find s) else none
  isPrefix := by
    intro s before text h
    split at h
    · cases h
      exact p.before_append_find_isPrefix s
    · cases h

instance : Coe Pattern Search :=
  ⟨search⟩

@[simp] theorem text_search (p : Pattern) (s : List Char) :
    p.search.text s = p.find s := by
  unfold Search.text search
  dsimp only
  split
  · rfl
  · next hfits =>
    have hnil : p.find s = [] := by simpa [fits] using hfits
    exact hnil.symm

theorem anchored_search {p : Pattern} (h : p.anchored = true) :
    p.search.Anchored := by
  intro s before text hfind
  unfold search at hfind
  dsimp only at hfind
  split at hfind
  · cases hfind
    exact before_of_anchored h s
  · cases hfind

end Pattern

end MiniC
