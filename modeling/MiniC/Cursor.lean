import MiniC.Lexical.Scan
import MiniC.Lexical.Search

/-!
A cursor into a source, for reading it piece by piece.

The cursor is a byte offset that only `advance` moves, and `advance` asks
nothing: it may leave the source, or stop inside a character. What reads
the text at the cursor answers with a `Misplaced` there; what only
computes with the offset never fails. `answers` runs a list of queries on
one cursor.
-/

namespace MiniC

/-- A byte offset into the text of the named file. -/
structure Cursor where
  source : List Char
  file : String
  offset : Nat
deriving DecidableEq

/-- Why there is no text at an offset. -/
inductive Misplaced where
  | pastEnd
  | insideCharacter
deriving DecidableEq

namespace Cursor

/-- The cursor at the start of a source. -/
def start (source : String) (file : Option String) : Cursor :=
  ⟨source.toList, file.getD unnamedFile, 0⟩

/-- The cursor `n` bytes further on. The sum has no bound here; in a word of 64
bits it would overflow from 2⁶⁴ on, which is past the end of any source. -/
def advance (c : Cursor) (n : Nat) : Cursor :=
  { c with offset := c.offset + n }

/-- The text from the cursor on. -/
def rest (c : Cursor) : Except Misplaced (List Char) :=
  match Text.dropBytes? c.offset c.source with
  | some s => .ok s
  | none =>
    .error (if Text.size c.source < c.offset then .pastEnd
      else .insideCharacter)

/-- The character at the cursor; none at the end. -/
def current (c : Cursor) : Except Misplaced (Option Char) :=
  c.rest.map List.head?

/-- The character `n` bytes past the cursor; none at the end and past it,
and none where a character has not ended. -/
def peek (c : Cursor) (n : Nat) : Except Misplaced (Option Char) :=
  c.rest.map fun s => (Text.dropBytes? n s).bind List.head?

/-- What a search finds in the text from the cursor on. -/
def matched (c : Cursor) (r : Search) : Except Misplaced (List Char) :=
  c.rest.map r.text

/-- Whether nothing is left, which holds past the end as well. -/
def atEnd (c : Cursor) : Bool :=
  Text.size c.source ≤ c.offset

/-- The place of the cursor. -/
def position (c : Cursor) : Position :=
  .ofOffset c.offset c.file

/-- The next `length` bytes. What a position keeps of where they end is the
remainder by 2³², so a sum that overflowed a word of 64 bits would leave the
same. -/
def span (c : Cursor) (length : Nat) : Span :=
  .ofOffset c.offset length c.file

-- What reads the source reads the rest, where there is one.

variable {c : Cursor} {v : List Char}

theorem current_of_rest (h : c.rest = .ok v) : c.current = .ok v.head? := by
  rw [current, h]
  rfl

theorem peek_of_rest (h : c.rest = .ok v) (n : Nat) :
    c.peek n = .ok ((Text.dropBytes? n v).bind List.head?) := by
  rw [peek, h]
  rfl

theorem peek_size_of_rest {s t : List Char} (h : c.rest = .ok (s ++ t)) :
    c.peek (Text.size s) = .ok t.head? := by
  rw [peek_of_rest h, Text.dropBytes?_append]
  rfl

theorem matched_of_rest (h : c.rest = .ok v) (r : Search) :
    c.matched r = .ok (r.text v) := by
  rw [matched, h]
  rfl

end Cursor

-- ============================================================== queries

/-- One thing to do with a cursor. -/
inductive Query where
  | advance (n : Nat)
  | current
  | peek (n : Nat)
  | rest
  | atEnd
  | position
  | span (length : Nat)
  | matched (r : Search)

/-- What a query gives back. -/
inductive Answer where
  | nothing
  | char (c : Option Char)
  | text (s : List Char)
  | flag (b : Bool)
  | place (p : Position)
  | span (s : Span)
  | misplaced (m : Misplaced)
deriving DecidableEq

/-- An answer that depends on the cursor being in place. -/
def Answer.ofExcept {α : Type} (answer : α → Answer) :
    Except Misplaced α → Answer
  | .ok a => answer a
  | .error m => .misplaced m

namespace Cursor

/-- The answer to one query. -/
def answer (c : Cursor) : Query → Answer
  | .advance _ => .nothing
  | .current => .ofExcept .char c.current
  | .peek n => .ofExcept .char (c.peek n)
  | .rest => .ofExcept .text c.rest
  | .atEnd => .flag c.atEnd
  | .position => .place c.position
  | .span length => .span (c.span length)
  | .matched r => .ofExcept .text (c.matched r)

/-- The cursor after one query. -/
def after (c : Cursor) : Query → Cursor
  | .advance n => c.advance n
  | _ => c

/-- The answers to queries put one after the other. -/
def answers (c : Cursor) : List Query → List Answer
  | [] => []
  | q :: qs => c.answer q :: (c.after q).answers qs

end Cursor

end MiniC
