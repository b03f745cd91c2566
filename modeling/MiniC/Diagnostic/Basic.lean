import MiniC.Position
import MiniC.Stage
import MiniC.Text.Quoted

/-!
What can go wrong, and the words for it.

A `Failure` is a cause with what is needed to name it; a `Diagnostic` adds
the phase that met it and the place. All wording is here: `name` says what
kind of failure it is, `message` what is wrong, `tip?` what to do about it,
and `report` is the line that the compiler ends with.
-/

namespace MiniC

/-- How the text of a number can be wrong. -/
inductive Malformation where
  /-- A point with no digit after it. -/
  | trailingPoint
  /-- A second point. -/
  | secondPoint
  /-- A point with no digit before it. -/
  | missingWhole
  /-- A letter or an underscore right after the number. -/
  | nameSuffix
deriving DecidableEq

/-- Why a phase gives up. -/
inductive Failure where
  | unknownCharacter (text : String)
  | invalidIdentifier (name : String)
  | malformedNumber (literal : String) (reason : Malformation)
  | missingOption (name : String)
  | unreadableFile (path cause : String)
  | notImplemented
deriving DecidableEq

/-- A failure, the phase that met it and the place that it is about. -/
structure Diagnostic where
  failure : Failure
  stage : Stage
  position : Position
deriving DecidableEq

/-- The malformation in words, as they follow the literal. -/
def Malformation.describe : Malformation → String
  | .trailingPoint => "decimal point is not followed by a digit"
  | .secondPoint => "more than one decimal point"
  | .missingWhole => "decimal point is not preceded by a digit"
  | .nameSuffix => "number is immediately followed by a name character"

/-- How to mend the number. -/
def Malformation.tip : Malformation → String
  | .trailingPoint => "Add at least one digit after the decimal point"
  | .secondPoint => "A number may contain at most one decimal point"
  | .missingWhole => "Add a leading digit, e.g. `0.5` instead of `.5`"
  | .nameSuffix =>
    "Separate the number from the following name, "
      ++ "names cannot start with a digit"

namespace Failure

open Text.Quoted (quote)

/-- The kind of a failure, for those who handle it. -/
def name : Failure → String
  | .unknownCharacter _ => "UnrecognisedToken"
  | .invalidIdentifier _ => "InvalidIdentifier"
  | .malformedNumber _ _ => "MalformedNumber"
  | .missingOption _ => "MissingOption"
  | .unreadableFile _ _ => "FileReadError"
  | .notImplemented => "NotImplementedError"

/-- What is wrong. Pieces of a source and paths are quoted; the name of an
option and the cause of a failed read stand as they are. -/
def message : Failure → String
  | .unknownCharacter text => "unknown character: " ++ quote text
  | .invalidIdentifier name => "invalid identifier " ++ quote name
  | .malformedNumber literal reason =>
    "invalid number " ++ quote literal ++ ": " ++ reason.describe
  | .missingOption name =>
    "No " ++ name ++ " path provided. Use --" ++ name ++ " to specify the "
      ++ name ++ " file path."
  | .unreadableFile path cause =>
    "could not read " ++ quote path ++ ": " ++ cause
  | .notImplemented => "not implemented error"

/-- What to do about it, where there is something to say. -/
def tip? : Failure → Option String
  | .unknownCharacter _ => none
  | .invalidIdentifier name =>
    some ("Identifiers must start with a letter, `" ++ name ++ "` does not")
  | .malformedNumber _ reason => some reason.tip
  | .missingOption name => some ("Pass `--" ++ name ++ "` on the command line")
  | .unreadableFile _ _ => none
  | .notImplemented =>
    some ("This stage is expected to be handled, "
      ++ "but has not yet been implemented")

end Failure

/-- The line that a compilation ends with. -/
def Diagnostic.report (d : Diagnostic) : String :=
  "Fatal error during " ++ d.stage.describe ++ ": " ++ d.failure.message

end MiniC
