import MiniC.Options.Basic
import MiniC.Text.Terminal

/-!
The grammar of the command line.

# Arguments

An argument is a separator `--`, a long option `--name` or `--name=value`,
a short option `-c` with perhaps its value right behind it, or plain text.
After a separator everything is plain text.

# Values

A switch has no value, a setting has one: attached, or as the next
argument, if that is plain text. A setting waits for its value until the
next option or the end, and is checked only then: the value must be there,
the setting must be new, and the value must not be empty. An argument that
no option answers to is refused at once, before a setting that waits.

# Ends

`--help` and `--version` end the reading where they stand. Everything else
that ends it early is a refusal.
-/

namespace MiniC

/-- The options without a value. -/
inductive Switch where
  | lex
  | parse
  | codegen
  | debug
  | help
  | version
deriving DecidableEq

/-- The options with a value. -/
inductive Setting where
  | output
  | input
deriving DecidableEq

/-- An option of the command line. -/
inductive Opt where
  | switch (s : Switch)
  | setting (s : Setting)
deriving DecidableEq

/-- Why the command line is refused. -/
inductive Refusal where
  | unexpectedArgument (text : String)
  | unexpectedValue (value : String) (s : Switch)
  | repeated (o : Opt)
  | missingValue (s : Setting)
deriving DecidableEq

/-- Why reading the command line ends before any option is used. -/
inductive Halt where
  | help
  | version
  | refused (r : Refusal)
deriving DecidableEq

-- ================================================================ wording

/-- The long name of a switch. -/
def Switch.name : Switch → String
  | .lex => "lex"
  | .parse => "parse"
  | .codegen => "codegen"
  | .debug => "debug"
  | .help => "help"
  | .version => "version"

/-- The long name of a setting. -/
def Setting.name : Setting → String
  | .output => "output"
  | .input => "input"

/-- The stand-in for the value of a setting. -/
def Setting.placeholder : Setting → String
  | .output => "<OUTPUT>"
  | .input => "<INPUT>"

/-- An option as usage texts show it. -/
def Opt.shown : Opt → String
  | .switch s => "--" ++ s.name
  | .setting s => "--" ++ s.name ++ " " ++ s.placeholder

open Text.Terminal (Medium written)

/-- A piece of the command line as a refusal repeats it: nothing in it
reaches a terminal as a command. -/
def repeatBack (medium : Medium) (text : String) : String :=
  String.ofList (written medium text.toList)

/-- Why the command line is refused, in words. -/
def Refusal.message (medium : Medium) : Refusal → String
  | .unexpectedArgument text =>
    "unexpected argument '" ++ repeatBack medium text ++ "' found"
  | .unexpectedValue value s =>
    "unexpected value '" ++ repeatBack medium value ++ "' for '"
      ++ (Opt.switch s).shown
      ++ "' found; no more were expected"
  | .repeated o =>
    "the argument '" ++ o.shown ++ "' cannot be used multiple times"
  | .missingValue s =>
    "a value is required for '" ++ (Opt.setting s).shown
      ++ "' but none was supplied"

/-- The name of the program and its version. -/
def versionText : String :=
  "ccfront 0.1.0\n"

/-- What `--help` prints, line by line. -/
def helpLines : List String :=
  [ "Compiler for a small subset of C",
    "",
    "Usage: ccfront [OPTIONS]",
    "",
    "Options:",
    "      --lex              Stop after lexing",
    "      --parse            Stop after parsing",
    "      --codegen          Stop after code generation",
    "  -o, --output <OUTPUT>  Output file path",
    "  -i, --input <INPUT>    Input C source file",
    "      --debug            Print stage-prefixed debug logs to stdout",
    "  -h, --help             Print help",
    "  -V, --version          Print version" ]

/-- What `--help` prints. -/
def helpText : String :=
  String.join (helpLines.map (· ++ "\n"))

/-- What is printed when reading the command line ends early. -/
def Halt.text (medium : Medium) : Halt → String
  | .help => helpText
  | .version => versionText
  | .refused r => "error: " ++ r.message medium ++ "\n"

/-- The exit code when reading the command line ends early. -/
def Halt.exitCode : Halt → UInt32
  | .help => 0
  | .version => 0
  | .refused _ => 2

-- ============================================================== arguments

/-- One argument by its shape. -/
inductive Argument where
  | separator
  | long (name : List Char) (value : Option (List Char))
  | short (letter : Char) (rest : List Char)
  | plain (text : List Char)
deriving DecidableEq

/-- The shape of an argument. -/
def Argument.ofList : List Char → Argument
  | ['-', '-'] => .separator
  | '-' :: '-' :: s =>
    match s.dropWhile (· != '=') with
    | [] => .long s none
    | _ :: value => .long (s.takeWhile (· != '=')) (some value)
  | '-' :: c :: s => .short c s
  | s => .plain s

/-- The option of a long name. -/
def Opt.ofName? (name : String) : Option Opt :=
  if name = "lex" then some (.switch .lex)
  else if name = "parse" then some (.switch .parse)
  else if name = "codegen" then some (.switch .codegen)
  else if name = "debug" then some (.switch .debug)
  else if name = "help" then some (.switch .help)
  else if name = "version" then some (.switch .version)
  else if name = "output" then some (.setting .output)
  else if name = "input" then some (.setting .input)
  else none

/-- The option of a short name. -/
def Opt.ofLetter? : Char → Option Opt
  | 'h' => some (.switch .help)
  | 'V' => some (.switch .version)
  | 'o' => some (.setting .output)
  | 'i' => some (.setting .input)
  | _ => none

/-- The value that stands right behind a short setting; an equals sign
between them is not part of it. -/
def attached : List Char → Option (List Char)
  | [] => none
  | '=' :: value => some value
  | value => some value

-- ================================================================ reading

/-- The command line up to some argument: the options so far, the setting
whose value is not checked yet, and whether a separator was there. -/
structure Reading where
  args : Args := {}
  waiting : Option (Setting × Option String) := none
  separated : Bool := false

namespace Reading

/-- Reading, which may end early. -/
abbrev Result := Except Halt Reading

/-- The value that a setting has so far. -/
def value? (r : Reading) : Setting → Option String
  | .output => r.args.output
  | .input => r.args.input

/-- Gives a setting its value. -/
def assign (r : Reading) (s : Setting) (value : String) : Reading :=
  match s with
  | .output => { r with args := { r.args with output := some value } }
  | .input => { r with args := { r.args with input := some value } }

/-- Checks a setting and its value, and takes them. -/
def settle (r : Reading) (s : Setting) (value : Option String) : Result :=
  match value with
  | none => .error (.refused (.missingValue s))
  | some v =>
    if (r.value? s).isSome then
      .error (.refused (.repeated (.setting s)))
    else if v = "" then
      .error (.refused (.missingValue s))
    else
      .ok (r.assign s v)

/-- Checks the setting that waits, if one does. -/
def settleWaiting (r : Reading) : Result :=
  match r.waiting with
  | none => .ok r
  | some (s, value) => { r with waiting := none }.settle s value

/-- Turns on one of the switches that only set a flag. -/
def turnOn (r : Reading) (s : Switch) (given : Bool) (args : Args) :
    Result :=
  if given then .error (.refused (.repeated (.switch s)))
  else .ok { r with args := args }

/-- Reads a switch. -/
def switch (r : Reading) (s : Switch) : Result := do
  let r ← r.settleWaiting
  match s with
  | .help => .error .help
  | .version => .error .version
  | .lex => r.turnOn s r.args.lex { r.args with lex := true }
  | .parse => r.turnOn s r.args.parse { r.args with parse := true }
  | .codegen => r.turnOn s r.args.codegen { r.args with codegen := true }
  | .debug => r.turnOn s r.args.debug { r.args with debug := true }

/-- Reads a setting: with its value it is checked at once, without one it
waits. -/
def setting (r : Reading) (s : Setting) (value : Option (List Char)) :
    Result := do
  let r ← r.settleWaiting
  match value with
  | some v => r.settle s (some (String.ofList v))
  | none => .ok { r with waiting := some (s, none) }

/-- Reads plain text, which only a setting that waits for its value can
use. -/
def plain (r : Reading) (text : String) : Result :=
  match r.waiting, r.separated with
  | some (s, none), false => .ok { r with waiting := some (s, some text) }
  | _, _ => .error (.refused (.unexpectedArgument text))

/-- Reads one argument. -/
def next (r : Reading) (argument : String) : Result :=
  if r.separated then
    r.plain argument
  else
    match Argument.ofList argument.toList with
    | .separator => .ok { r with separated := true }
    | .long name value =>
      let name := String.ofList name
      match Opt.ofName? name, value with
      | none, _ => .error (.refused (.unexpectedArgument ("--" ++ name)))
      | some (.switch s), none => r.switch s
      | some (.switch s), some v =>
        .error (.refused (.unexpectedValue (String.ofList v) s))
      | some (.setting s), value => r.setting s value
    | .short letter rest =>
      match Opt.ofLetter? letter with
      | none =>
        .error (.refused
          (.unexpectedArgument (String.ofList ['-', letter])))
      | some (.switch s) => r.switch s
      | some (.setting s) => r.setting s (attached rest)
    | .plain _ => r.plain argument

end Reading

/-- The options of a command line. -/
def Args.ofArguments (argv : List String) : Except Halt Args := do
  let r ← argv.foldlM Reading.next {}
  let r ← r.settleWaiting
  return r.args

end MiniC
