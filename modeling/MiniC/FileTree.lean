import MiniC.Path
import MiniC.Text.Bytes

/-!
Files to read from: a tree of directories given by its listing.

# Places

A place in the tree is the names that lead to it: from the working directory,
after a `..` for each directory above that to begin with, or from the root,
after an empty name to begin with. So it is written in a path, but for what
names nothing and for the ways back.

# The tree

A listing says what is at which place. A directory is there if it is listed or
if something is listed below it, and so are the root and what is above the
working directory.

# Walking

A path is walked piece by piece. Every piece needs a directory to stand
in, so a file can only be the end of a path, and a slash after it is one
piece too many.
-/

namespace MiniC

/-- Why a file cannot be read. -/
inductive ReadFailure where
  | notFound
  | isDirectory
  | notDirectory
  | nameTooLong
  | nulInPath
  | notUtf8
  /-- Whatever else the system says. -/
  | other (message : String)
deriving DecidableEq

/-- The cause of a failed read in words. -/
def ReadFailure.message : ReadFailure → String
  | .notFound => "No such file or directory (os error 2)"
  | .isDirectory => "Is a directory (os error 21)"
  | .notDirectory => "Not a directory (os error 20)"
  | .nameTooLong => "File name too long (os error 36)"
  | .nulInPath => "file name contained an unexpected NUL byte"
  | .notUtf8 => "stream did not contain valid UTF-8"
  | .other message => message

/-- Something in a tree: a file with its bytes, or a directory. -/
inductive Node where
  | file (bytes : ByteArray)
  | directory

/-- The names that lead to a place. -/
abbrev Place := List (List Char)

namespace Place

/-- The step to the directory above. -/
def dots : List Char :=
  ['.', '.']

/-- Where absolute paths start. -/
def root : Place :=
  [[]]

/-- The directory above a place; the root is its own. -/
def above (place : Place) : Place :=
  if place = root then root
  else if place.all (· == dots) then place ++ [dots]
  else place.dropLast

/-- Whether a directory is there in any tree. -/
def isGiven (place : Place) : Bool :=
  place = root || place.all (· == dots)

end Place

/-- A tree of files as a list of what is where in it. -/
structure FileTree where
  entries : List (Place × Node)

namespace FileTree

/-- What is at a place. -/
def node? (t : FileTree) (place : Place) : Option Node :=
  if place.isGiven then
    some .directory
  else
    match t.entries.find? (·.1 == place) with
    | some e => some e.2
    | none =>
      if t.entries.any (place.isPrefixOf ·.1) then some .directory else none

/-- The most bytes that a name can have. -/
def nameLimit : Nat :=
  255

/-- The most bytes that a path can have. -/
def pathLimit : Nat :=
  4095

/-- One piece of a path, from a place and what is there. -/
def walk (t : FileTree) (here : Place × Node) (piece : List Char) :
    Except ReadFailure (Place × Node) :=
  match here with
  | (_, .file _) => .error .notDirectory
  | (place, .directory) =>
    if !Path.isStep piece then .ok here
    else if nameLimit < Text.size piece then .error .nameTooLong
    else if piece = Place.dots then .ok (place.above, .directory)
    else
      match t.node? (place ++ [piece]) with
      | some node => .ok (place ++ [piece], node)
      | none => .error .notFound

/-- What a path leads to. -/
def locate (t : FileTree) (path : List Char) : Except ReadFailure Node :=
  if path.contains '\x00' then .error .nulInPath
  else if path.isEmpty then .error .notFound
  else if pathLimit < Text.size path then .error .nameTooLong
  else
    let start := if path.head? = some '/' then Place.root else []
    ((Path.pieces path).foldlM t.walk (start, .directory)).map Prod.snd

/-- The bytes of the file that a path leads to. -/
def read (t : FileTree) (path : String) : Except ReadFailure ByteArray := do
  match ← t.locate path.toList with
  | .file bytes => return bytes
  | .directory => throw .isDirectory

end FileTree

end MiniC
