import MiniC.Text.Invisible

/-!
Two classes of characters that reach beyond ASCII: what shows when it is
printed, and what counts as space at the end of a line.
-/

namespace MiniC.Text

/-- Whether a character leaves a mark of its own, or is the plain space.
Printable ASCII is told apart first, as nearly all text is made of it. -/
def isVisible (c : Char) : Bool :=
  if 0x20 ≤ c.toNat ∧ c.toNat < 0x7F then
    true
  else
    !Invisible.ranges.any fun r => r.1 ≤ c.toNat && c.toNat ≤ r.2

/-- The characters with the property White_Space. -/
def isSpace (c : Char) : Bool :=
  let n := c.toNat
  (0x09 ≤ n && n ≤ 0x0D) || n == 0x20 || n == 0x85 || n == 0xA0
    || n == 0x1680 || (0x2000 ≤ n && n ≤ 0x200A) || n == 0x2028
    || n == 0x2029 || n == 0x202F || n == 0x205F || n == 0x3000

/-- Drops the space at the end of a text. -/
def trimEnd (s : List Char) : List Char :=
  (s.reverse.dropWhile isSpace).reverse

/-- A text is what trimming keeps of it, and space. -/
theorem trimEnd_append (s : List Char) :
    trimEnd s ++ (s.reverse.takeWhile isSpace).reverse = s := by
  unfold trimEnd
  rw [← List.reverse_append, List.takeWhile_append_dropWhile,
    List.reverse_reverse]

end MiniC.Text
