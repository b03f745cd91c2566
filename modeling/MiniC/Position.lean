/-!
Places in a source.

A place is a byte offset and the name of the file. The offset is a word of
32 bits: a longer offset is stored modulo 2³² (`Position.ofOffset`), so
that two places of a very long source can share an offset. The file name
`<null>` is reserved for what has no place.
-/

namespace MiniC

/-- A byte offset into the named file. -/
structure Position where
  offset : UInt32
  file : String
deriving DecidableEq

/-- The bytes from `start` up to, and without, `stop`. -/
structure Span where
  start : Position
  stop : Position
deriving DecidableEq

namespace Position

/-- The file name of a position that is none. -/
def nullFile : String :=
  "<null>"

/-- The position of what has no place in a source. -/
def null : Position :=
  ⟨0, nullFile⟩

/-- Whether a position is none: the file name alone decides. -/
def isNull (p : Position) : Bool :=
  p.file == nullFile

/-- The position `offset` bytes into a file, kept modulo 2³². -/
def ofOffset (offset : Nat) (file : String) : Position :=
  ⟨UInt32.ofNat offset, file⟩

@[simp] theorem file_ofOffset (offset : Nat) (file : String) :
    (ofOffset offset file).file = file := rfl

@[simp] theorem toNat_offset_ofOffset (offset : Nat) (file : String) :
    (ofOffset offset file).offset.toNat = offset % UInt32.size :=
  UInt32.toNat_ofNat

end Position

/-- The `length` bytes from `offset` on. -/
def Span.ofOffset (offset length : Nat) (file : String) : Span :=
  ⟨.ofOffset offset file, .ofOffset (offset + length) file⟩

end MiniC
