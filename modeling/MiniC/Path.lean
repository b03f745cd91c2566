import MiniC.Text.Class

/-!
Paths, and the names of the files that they lead to.

# Texts

A path that is a text has pieces between its slashes. Empty pieces and `.`
name nothing, so they are passed over when the last piece is looked for. A
path whose last piece is `..`, or that has no piece left, has no file name.

# Other paths

A system need not have texts for paths. What a run wants to know of one is
its file name, and a text to show for it (`SystemPath`).
-/

namespace MiniC

/-- What a run asks of the paths of a system. -/
class SystemPath (π : Type) where
  /-- The path as text; what is no text in it is replaced. -/
  text : π → String
  /-- The name of the file that the path leads to. -/
  fileName? : π → Option π

namespace Path

/-- The pieces of a path between its slashes, empty ones included. -/
def pieces (path : List Char) : List (List Char) :=
  path.splitOn '/'

/-- Whether a piece names something of its own. -/
def isStep (piece : List Char) : Bool :=
  !piece.isEmpty && piece != ['.']

/-- The name of the file that a path leads to. -/
def fileName? (path : List Char) : Option (List Char) :=
  match ((pieces path).filter isStep).getLast? with
  | none => none
  | some name => if name = ['.', '.'] then none else some name

end Path

/-- Texts as paths. -/
instance : SystemPath String where
  text path := path
  fileName? path := (Path.fileName? path.toList).map String.ofList

/-- The name that places in a source carry: the file name of its path, or
the path where there is none. -/
def Path.inputName {π : Type} [SystemPath π] (path : π) : String :=
  SystemPath.text ((SystemPath.fileName? path).getD path)

theorem Path.inputName_eq_getD (path : String) :
    inputName path
      = ((fileName? path.toList).map String.ofList).getD path := rfl

end MiniC
