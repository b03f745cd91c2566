import MiniC.Text.Bytes

/-!
The lines of a text, by byte offset.

A line ends with its line feed, or with the text. `lineAt?` walks from
line to line, spending on each as many bytes as it has, until the offset
falls into one.
-/

namespace MiniC.Text

/-- A line of a text and an offset into it: `number` counts from one,
`text` holds the line feed as well, `offset` counts bytes. -/
structure Line where
  number : Nat
  text : List Char
  offset : Nat
deriving DecidableEq

/-- The first line of a text, its line feed included, and what follows. -/
def splitLine (s : List Char) : List Char × List Char :=
  let line := s.takeWhile (· != '\n')
  match s.dropWhile (· != '\n') with
  | [] => (line, [])
  | c :: rest => (line ++ [c], rest)

theorem splitLine_append (s : List Char) :
    (splitLine s).1 ++ (splitLine s).2 = s := by
  have h := List.takeWhile_append_dropWhile (p := (· != '\n')) (l := s)
  unfold splitLine
  dsimp only
  split
  · next hnil => rw [hnil] at h; exact h
  · next c rest hcons =>
    rw [hcons] at h
    rw [List.append_assoc]
    exact h

/-- A line is never empty, so what follows is shorter than the text. -/
theorem length_splitLine_lt {s : List Char} (h : s ≠ []) :
    (splitLine s).2.length < s.length := by
  have happ := congrArg List.length (splitLine_append s)
  rw [List.length_append] at happ
  have hpos : 0 < (splitLine s).1.length := by
    rw [List.length_pos_iff]
    intro hnil
    unfold splitLine at hnil
    dsimp only at hnil
    split at hnil
    · next hdrop =>
      have hall := List.takeWhile_append_dropWhile (p := (· != '\n')) (l := s)
      rw [hdrop, show s.takeWhile (· != '\n') = [] from hnil] at hall
      exact h hall.symm
    · exact List.append_ne_nil_of_right_ne_nil _ (List.cons_ne_nil _ _) hnil
  omega

/-- The line that `offset` falls into, counting lines from `number` on. -/
def lineFrom? (number offset : Nat) (s : List Char) : Option Line :=
  if _h : s = [] then
    none
  else
    let line := (splitLine s).1
    if offset < size line then some ⟨number, line, offset⟩
    else lineFrom? (number + 1) (offset - size line) (splitLine s).2
termination_by s.length
decreasing_by exact length_splitLine_lt _h

/-- The line that the byte at `offset` belongs to. -/
def lineAt? (s : List Char) (offset : Nat) : Option Line :=
  lineFrom? 1 offset s

end MiniC.Text
