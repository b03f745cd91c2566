/-!
Texts measured in bytes of UTF-8.

Offsets into a source count bytes, while a text is worked on as the list
of its characters. `size` carries the one to the other, and `dropBytes?`
is the cut at a byte offset: it has an answer exactly where the offset
falls between two characters or at one of the ends.
-/

namespace MiniC.Text

/-- The number of bytes that a text takes in UTF-8. -/
def size (s : List Char) : Nat :=
  s.foldl (fun n c => n + c.utf8Size) 0

/-- What is left of a text after its first `n` bytes, where these end
between two characters. -/
def dropBytes? : Nat → List Char → Option (List Char)
  | 0, s => some s
  | _ + 1, [] => none
  | n + 1, c :: s =>
    if c.utf8Size ≤ n + 1 then dropBytes? (n + 1 - c.utf8Size) s else none

-- ================================================================= size

theorem foldl_utf8Size (n : Nat) (s : List Char) :
    s.foldl (fun n c => n + c.utf8Size) n = n + size s := by
  unfold size
  induction s generalizing n with
  | nil => rfl
  | cons c s ih =>
    rw [List.foldl_cons, List.foldl_cons, ih, ih (0 + c.utf8Size)]
    omega

@[simp] theorem size_nil : size [] = 0 := rfl

@[simp] theorem size_cons (c : Char) (s : List Char) :
    size (c :: s) = c.utf8Size + size s := by
  rw [size, List.foldl_cons, foldl_utf8Size]
  omega

@[simp] theorem size_append (s t : List Char) :
    size (s ++ t) = size s + size t := by
  rw [size, List.foldl_append, foldl_utf8Size]
  rfl

/-- No character is free. -/
theorem length_le_size (s : List Char) : s.length ≤ size s := by
  induction s with
  | nil => exact Nat.le_refl 0
  | cons c s ih =>
    have := c.utf8Size_pos
    rw [List.length_cons, size_cons]
    omega

-- ================================================================== cut

/-- A cut after a whole prefix leaves the rest. -/
theorem dropBytes?_append (s t : List Char) :
    dropBytes? (size s) (s ++ t) = some t := by
  induction s with
  | nil => cases t <;> rfl
  | cons c s ih =>
    have hc := c.utf8Size_pos
    obtain ⟨k, hk⟩ : ∃ k, c.utf8Size + size s = k + 1 :=
      ⟨c.utf8Size + size s - 1, by omega⟩
    have hs : k + 1 - c.utf8Size = size s := by omega
    rw [size_cons, hk, List.cons_append, dropBytes?, if_pos (by omega), hs, ih]

end MiniC.Text
