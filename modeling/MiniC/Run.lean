import MiniC.Diagnostic.Excerpt
import MiniC.FileTree
import MiniC.Lexical.Scan
import MiniC.Options.Grammar

/-!
A whole run of the compiler, from the command line to the exit code.

# Surroundings

A run needs three things from outside: the bytes of a file, how long a
computation took, and how the log writes a line. A `Host` supplies them in a
monad of its own. On a machine it acts; where all three are given, it is a
value (`Host.given`), and a run is a function of them and the options.

# Order

The options, the source, its tokens and the phases after them each get
their turn, and the first failure ends the run. What is logged before it
stays logged. The phases after scanning are yet to come, so a run that is
not asked to stop there fails.
-/

namespace MiniC

/-- What the surroundings of a run supply. -/
structure Host (m : Type → Type) (π : Type := String) where
  /-- The bytes of the file that a path leads to. -/
  read : π → m (Except ReadFailure ByteArray)
  /-- A computed value, and how long it took, in words. -/
  timed : {α : Type} → (Unit → α) → m (α × String)
  /-- A line of the log as it is written. -/
  write : String → String

/-- Surroundings as values, where `elapsed` is how long anything takes. -/
def Host.given {π : Type} (read : π → Except ReadFailure ByteArray)
    (elapsed : String) (write : String → String) : Host Id π where
  read path := pure (read path)
  timed f := pure (f (), elapsed)
  write := write

/-- What a run leaves behind. -/
@[ext]
structure Outcome where
  exitCode : UInt32
  stdout : String
  stderr : String
deriving DecidableEq

variable {π : Type} [SystemPath π]

namespace Options

/-- The failure to read the source. -/
def unreadable (o : Options π) (why : ReadFailure) : Diagnostic :=
  Args.diagnostic (.unreadableFile (SystemPath.text o.input) why.message)

/-- The source as text, from what reading its file gave. -/
def source (o : Options π) (content : Except ReadFailure ByteArray) :
    Except Diagnostic String :=
  match content with
  | .error why => .error (o.unreadable why)
  | .ok bytes =>
    match String.fromUTF8? bytes with
    | some text => .ok text
    | none => .error (o.unreadable .notUtf8)

end Options

/-- What scanning says in the log: nothing, unless it succeeds. -/
def scanEvents (result : Except Diagnostic (List Token)) : List Event :=
  match result with
  | .ok _ => [.scanned]
  | .error _ => []

namespace Outcome

/-- A run that ends before it has options. -/
def ofHalt (h : Halt) : Outcome :=
  match h with
  | .refused _ => ⟨h.exitCode, "", h.text .stream⟩
  | _ => ⟨h.exitCode, h.text .stream, ""⟩

/-- A run that ends as it was asked to. -/
def finished (log : String) : Outcome :=
  ⟨0, log, ""⟩

/-- A run that a diagnosis ends. -/
def failed (log : String) (d : Diagnostic) (source path : String) : Outcome :=
  ⟨1, log, d.render source path⟩

end Outcome

/-- The failure of a phase that is yet to come. -/
def notImplemented : Diagnostic :=
  ⟨.notImplemented, .parse, .null⟩

/-- What a run does with the tokens of its source, when `before` is what it
has logged and `log` writes a log. -/
def compile (log : List Event → String) (o : Options π) (before : List Event)
    (source elapsed : String) (tokens : Except Diagnostic (List Token)) :
    Outcome :=
  let scanned := before ++ scanEvents tokens
  match tokens with
  | .error d => .failed (log scanned) d source (SystemPath.text o.input)
  | .ok ts =>
    let counted := scanned ++ .counted ts.length elapsed :: ts.map .token
    if o.stopAfter = some .lex then .finished (log counted)
    else
      .failed (log (counted ++ [.output (SystemPath.text o.output)]))
        notImplemented source (SystemPath.text o.input)

/-- A run with the options that a command line gave. -/
def runArgs {m : Type → Type} [Monad m] (host : Host m π) (a : Args π) :
    m Outcome :=
  let log := Log.written host.write a.debug
  match a.validate with
  | .error d => pure (.failed (log []) d "" "")
  | .ok o => do
    match o.source (← host.read o.input) with
    | .error d =>
      pure (.failed (log a.events) d "" (SystemPath.text o.input))
    | .ok text =>
      let (tokens, elapsed) ← host.timed fun _ =>
        tokenize text (some o.inputName)
      pure (compile log o a.events text elapsed tokens)

/-- A run with a command line. -/
def run {m : Type → Type} [Monad m] (host : Host m) (argv : List String) :
    m Outcome :=
  match Args.ofArguments argv with
  | .error h => pure (.ofHalt h)
  | .ok a => runArgs host a

/-- A tree of files as surroundings, where `elapsed` is how long anything
takes. -/
def FileTree.host (t : FileTree) (elapsed : String) : Host Id :=
  .given t.read elapsed Log.line

end MiniC
