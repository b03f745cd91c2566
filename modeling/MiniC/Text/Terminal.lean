/-!
What a terminal writes of a text, apart from what it obeys.

# Sequences

Control characters and the sequences that ESC starts are obeyed. The
character after ESC decides how a sequence goes on.

* After `[` it is a control sequence and ends with the first character from
  `@` to `~`.
* After `]` it is a command to the system and ends with BEL.
* After `X`, `^` or `_` it is a string. A string ends with the byte 9C of
  UTF-8, within whichever character that byte stands.
* After `P` a header comes first, of parameters and then intermediates.
  What does not fit into the header starts a string.
* Otherwise it is an escape and ends with the first character from `0` to
  `~`, before which there may be intermediates, from space to `/`.

ESC starts the next sequence anywhere, CAN and SUB end one anywhere. White
space other than the plain space breaks off an escape or a control sequence
and is written itself. Everything else in a sequence belongs to it.

# Media

A text that is there as a whole is done with a sequence that was broken off.
A stream has only put it aside: the first ASCII control that is not written
takes it up again, unless a character beyond ASCII came before.
-/

namespace MiniC.Text.Terminal

/-- White space that moves to another place or line. -/
def isMove (c : Char) : Bool :=
  c == '\t' || c == '\n' || c == '\x0c' || c == '\r'

/-- Whether a character outside of sequences is written: the controls of
ASCII are not, unless they are white space. -/
def isWritten (c : Char) : Bool :=
  (0x20 ≤ c.toNat && c != '\x7f') || isMove c

/-- Whether a character lies between two others, both included. -/
def within (first last c : Char) : Bool :=
  first ≤ c && c ≤ last

/-- Whether a character ends a string. -/
def endsString (c : Char) : Bool :=
  (String.utf8EncodeChar c).contains 0x9C

/-- Where in a sequence a text stands. -/
inductive Mode where
  /-- Outside of sequences. -/
  | text
  /-- Right after ESC. -/
  | escape
  /-- After an intermediate of an escape. -/
  | intermediate
  /-- In a control sequence. -/
  | control
  /-- In a command to the system. -/
  | command
  /-- At the start of a header. -/
  | header
  /-- After a parameter of a header. -/
  | parameter
  /-- After an intermediate of a header. -/
  | headerIntermediate
  /-- In a string. -/
  | string
deriving DecidableEq

namespace Mode

/-- Where a text stands after the second character of a sequence. -/
def afterEscape (c : Char) : Mode :=
  if c == '[' then .control
  else if c == ']' then .command
  else if c == 'P' then .header
  else if c == 'X' || c == '^' || c == '_' then .string
  else if within ' ' '/' c then .intermediate
  else if within '0' '~' c || isMove c then .text
  else .escape

/-- Where a text stands after another character of a header. -/
def afterHeader (mode : Mode) (c : Char) : Mode :=
  if within ' ' '/' c then .headerIntermediate
  else if within '0' '~' c then
    if mode != .headerIntermediate && within '0' ';' c then .parameter
    else if mode == .header && within '<' '?' c then .parameter
    else .string
  else mode

/-- Where a text stands after another character. -/
def next (mode : Mode) (c : Char) : Mode :=
  if c == '\x1b' then .escape
  else if c == '\x18' || c == '\x1a' then .text
  else
    match mode with
    | .text => .text
    | .escape => afterEscape c
    | .intermediate => if within '0' '~' c || isMove c then .text else mode
    | .control => if within '@' '~' c || isMove c then .text else mode
    | .command => if c == '\x07' then .text else mode
    | .header | .parameter | .headerIntermediate => mode.afterHeader c
    | .string => if endsString c then .text else mode

/-- Whether a character is written. -/
def writes (mode : Mode) (c : Char) : Bool :=
  match mode with
  | .text => isWritten c
  | .escape | .intermediate | .control => isMove c
  | _ => false

end Mode

/-- How a text gets to the terminal. -/
inductive Medium where
  /-- All of it at once. -/
  | whole
  /-- Bit by bit. -/
  | stream
deriving DecidableEq

/-- The sequence that is left to take up again after a character was
written. -/
def Medium.keep (medium : Medium) (mode : Mode) (c : Char) : Mode :=
  match medium with
  | .whole => .text
  | .stream => if c.toNat < 0x80 then mode else .text

/-- What is written of the rest of a text, where `writing` tells whether the
character before it was written: then its sequence is put aside. -/
def writtenFrom (medium : Medium) : Bool → Mode → List Char → List Char
  | _, _, [] => []
  | writing, mode, c :: s =>
    if (if writing then Mode.text else mode).writes c then
      c :: writtenFrom medium true (medium.keep mode c) s
    else
      writtenFrom medium false (mode.next c) s

/-- What is written of a text. -/
def written (medium : Medium) (s : List Char) : List Char :=
  writtenFrom medium false .text s

-- ===================================================== without sequences

theorem keep_text (medium : Medium) (c : Char) :
    medium.keep .text c = .text := by
  cases medium
  · rfl
  · exact ite_self _

theorem next_text {c : Char} (h : c ≠ '\x1b') : Mode.text.next c = .text := by
  rw [Mode.next, if_neg (by simpa using h)]
  exact ite_self _

/-- Without ESC there are no sequences, and each character decides for
itself. -/
theorem writtenFrom_eq_filter (medium : Medium) (writing : Bool)
    {s : List Char} (h : '\x1b' ∉ s) :
    writtenFrom medium writing .text s = s.filter isWritten := by
  induction s generalizing writing with
  | nil => rfl
  | cons c s ih =>
    have hs : '\x1b' ∉ s := fun hs => h (List.mem_cons_of_mem c hs)
    have hc : c ≠ '\x1b' := fun e => h (e ▸ List.mem_cons_self)
    rw [writtenFrom, keep_text, next_text hc, ih true hs, ih false hs, ite_self,
      List.filter_cons]
    rfl

theorem written_eq_filter (medium : Medium) {s : List Char}
    (h : '\x1b' ∉ s) : written medium s = s.filter isWritten :=
  writtenFrom_eq_filter medium false h

end MiniC.Text.Terminal
