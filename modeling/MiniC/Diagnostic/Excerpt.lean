import MiniC.Diagnostic.Basic
import MiniC.Numeric.Notation
import MiniC.Text.Class
import MiniC.Text.Line

/-!
A diagnosis as it is shown: the report, the tip, and the line of the
source that it is about with an arrow to the place.

The excerpt is taken only for a place that is one and lies in the source.
Its line is shown without indentation and without the space at its end;
the arrow is shorter by the indentation, so that it still reaches the
place.
-/

namespace MiniC

/-- One line of a source with a place in it: the number of the line, the
column of the place, the text shown, and how many dashes lead to it. -/
structure Excerpt where
  line : Nat
  column : Nat
  text : List Char
  dashes : Nat
deriving DecidableEq

namespace Excerpt

/-- The excerpt for a line of a source. Indentation is one byte a
character, so its width is what the arrow loses. -/
def ofLine (l : Text.Line) : Excerpt :=
  { line := l.number
    column := l.offset + 1
    text := Text.trimEnd (l.text.dropWhile Text.isIndent)
    dashes := l.offset - (l.text.takeWhile Text.isIndent).length }

/-- The excerpt for the byte at an offset, if the source has one there. -/
def at? (source : List Char) (offset : Nat) : Option Excerpt :=
  (Text.lineAt? source offset).map ofLine

/-- The bar in front of an excerpt, under the line's number. -/
def bar (e : Excerpt) : List Char :=
  List.replicate ((Numeric.digits e.line).length + 1) ' ' ++ ['|']

/-- Where the place is: path, line and column. -/
def location (e : Excerpt) (path : List Char) : List Char :=
  ['-', '>', ' '] ++ path ++ ':' :: Numeric.digits e.line ++
    ':' :: Numeric.digits e.column

/-- The line of the source, behind its number. -/
def numbered (e : Excerpt) : List Char :=
  Numeric.digits e.line ++ [' ', '|', ' '] ++ e.text

/-- The arrow to the place. -/
def arrow (e : Excerpt) : List Char :=
  e.bar ++ ' ' :: List.replicate e.dashes '-' ++ ['^']

/-- An excerpt as it is shown. -/
def lines (e : Excerpt) (path : List Char) : List (List Char) :=
  [e.location path, e.bar, e.numbered, e.arrow]

end Excerpt

namespace Diagnostic

/-- The excerpt of a diagnosis in a source: none for what has no place. -/
def excerpt? (d : Diagnostic) (source : List Char) : Option Excerpt :=
  if d.position.isNull then none
  else Excerpt.at? source d.position.offset.toNat

/-- The tip of a diagnosis as it is shown. -/
def note? (d : Diagnostic) : Option (List Char) :=
  d.failure.tip?.map fun tip => "note: ".toList ++ tip.toList

/-- A diagnosis as it is shown for a source that was read from `path`. -/
def lines (d : Diagnostic) (source path : List Char) : List (List Char) :=
  d.report.toList :: d.note?.toList ++
    match d.excerpt? source with
    | some e => e.lines path
    | none => []

/-- A diagnosis as text, every line with its line feed. -/
def render (d : Diagnostic) (source path : String) : String :=
  String.ofList
    ((d.lines source.toList path.toList).flatMap (· ++ ['\n']))

end Diagnostic

end MiniC
