import MiniC.Diagnostic.Basic
import MiniC.Log
import MiniC.Path

/-!
What a run is asked to do.

`Args` are the options as they were given, `Options` what a run needs of
them. Both paths have to be there, the output's first; of several phases to
stop after, the earliest counts. The paths are texts unless a system has
others.
-/

namespace MiniC

/-- The options as given. -/
structure Args (π : Type := String) where
  lex : Bool := false
  parse : Bool := false
  codegen : Bool := false
  debug : Bool := false
  output : Option π := none
  input : Option π := none
deriving DecidableEq

/-- What a run needs: where to stop, and the two paths. -/
structure Options (π : Type := String) where
  stopAfter : Option Stage
  output : π
  input : π
deriving DecidableEq

variable {π : Type}

/-- The name that the places of the source carry. -/
def Options.inputName [SystemPath π] (o : Options π) : String :=
  Path.inputName o.input

namespace Args

/-- The phases that were asked for, the earliest first. -/
def stops (a : Args π) : List Stage :=
  (if a.lex then [.lex] else []) ++ (if a.parse then [.parse] else [])
    ++ (if a.codegen then [.codegen] else [])

/-- A failure of the options themselves, which have no place in a source. -/
def diagnostic (failure : Failure) : Diagnostic :=
  ⟨failure, .cliArgs, .null⟩

/-- What the options ask for, if both paths are given. -/
def validate (a : Args π) : Except Diagnostic (Options π) :=
  match a.output, a.input with
  | none, _ => .error (diagnostic (.missingOption "output"))
  | some _, none => .error (diagnostic (.missingOption "input"))
  | some output, some input => .ok ⟨a.stops.head?, output, input⟩

/-- What checking the options says in the log: nothing, unless they
pass. -/
def events (a : Args π) : List Event :=
  match a.validate with
  | .error _ => []
  | .ok _ =>
    (if a.debug then [.debugging] else []) ++
      a.stops.map .stoppingAfter ++ [.optionsRead]

end Args

end MiniC
