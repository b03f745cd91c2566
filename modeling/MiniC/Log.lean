import MiniC.Stage
import MiniC.Token.Basic

/-!
The debug log: what a run says about itself.

An `Event` is something that happened; it is worded and put under its
phase only when the log is written. How a line of it comes out is up to who
writes it (`Log.written`), and a terminal is not to obey it (`Log.line`). A
log that is switched off is empty.
-/

namespace MiniC

/-- Something that a run reports in its log. -/
inductive Event where
  /-- The log was switched on. -/
  | debugging
  /-- The run was asked to end after a phase. -/
  | stoppingAfter (stage : Stage)
  /-- The options are complete. -/
  | optionsRead
  /-- The source was cut into tokens. -/
  | scanned
  /-- How many tokens there are, and how long it took. -/
  | counted (tokens : Nat) (elapsed : String)
  /-- One of the tokens. -/
  | token (t : Token)
  /-- Where the output would go. -/
  | output (path : String)

namespace Event

/-- The phase that an event belongs to. -/
def stage : Event → Stage
  | .debugging | .stoppingAfter _ | .optionsRead => .cliArgs
  | .scanned | .counted _ _ | .token _ => .lex
  | .output _ => .parse

/-- An event in words. -/
def message : Event → String
  | .debugging => "CLI argument --debug provided. Enabling debugging"
  | .stoppingAfter stage =>
    "CLI argument --" ++ stage.tag ++ " provided. Stopping after "
      ++ stage.tag
  | .optionsRead => "Finished parsing command line arguments"
  | .scanned => "lexing source text complete"
  | .counted tokens elapsed =>
    "Tokenized " ++ Numeric.natText tokens ++ " tokens in " ++ elapsed
  | .token t => t.text
  | .output path => "Output would be written to " ++ path

/-- An event under its phase. -/
def text (e : Event) : String :=
  "[" ++ e.stage.tag ++ "] " ++ e.message

end Event

namespace Log

/-- A character in a log line: what a terminal would obey, it shows as a
code instead. -/
def shown (c : Char) : List Char :=
  if c = '\x1b' then "\\x1b".toList
  else if c = '\x07' then "\\x07".toList
  else if c = '\x08' then "\\x08".toList
  else if c = '\x0c' then "\\x0c".toList
  else if c = '\x7f' then "\\x7f".toList
  else if 0x80 ≤ c.toNat ∧ c.toNat ≤ 0x9F then
    '\\' :: 'u' :: '{' :: Nat.toDigits 16 c.toNat ++ ['}']
  else [c]

/-- A line as it is written for a terminal. -/
def line (text : String) : String :=
  String.ofList (text.toList.flatMap shown ++ ['\n'])

/-- A log in which `write` writes the lines. -/
def written (write : String → String) (enabled : Bool)
    (events : List Event) : String :=
  if enabled then String.join (events.map fun e => write e.text) else ""

/-- The text of a log. -/
def text (enabled : Bool) (events : List Event) : String :=
  written line enabled events

end Log

end MiniC
