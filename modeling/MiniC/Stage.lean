/-!
The phases of the compiler, as a diagnosis and a log line name them.
-/

namespace MiniC

/-- A phase of the compiler, in the order of the run. -/
inductive Stage where
  | cliArgs
  | lex
  | parse
  | codegen
  | codeEmission
deriving DecidableEq

/-- The short name of a phase, which log lines carry in brackets. -/
def Stage.tag : Stage → String
  | .cliArgs => "cliArgs"
  | .lex => "lex"
  | .parse => "parse"
  | .codegen => "codegen"
  | .codeEmission => "codeEmission"

/-- The name of a phase in running text. -/
def Stage.describe : Stage → String
  | .cliArgs => "command line argument parsing"
  | .lex => "lexing"
  | .parse => "parsing"
  | .codegen => "code generation"
  | .codeEmission => "code emission"

end MiniC
