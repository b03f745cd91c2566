import MiniC.Diagnostic.Basic
import MiniC.Lexical.Pattern
import MiniC.Token.Kind

/-!
The rules of the lexical grammar: which shape a rule reads, and what it
makes of a text that starts with it.

A rule skips what it matched, makes a token of it, or finds the text at
fault. Two kinds of text have a rule only to be refused with a better word
than "unknown character": names that start with an underscore, and numbers
that start with a point. The rule for numbers looks one character past its
own match, because a number that a point or a name character follows is
no number.
-/

namespace MiniC

/-- A rule of the lexical grammar. -/
inductive Rule where
  | blanks
  | punctuator (p : Punctuator)
  | word
  | underscored
  | number
  | leadingPoint
deriving DecidableEq

/-- What a rule makes of the text at hand. -/
inductive Verdict where
  | skip
  | token (kind : Kind)
  | fault (failure : Failure)
deriving DecidableEq

namespace Rule

/-- The rules in the order in which they are tried. -/
def all : List Rule :=
  .blanks :: Punctuator.all.map .punctuator ++
    [.word, .underscored, .number, .leadingPoint]

/-- The shape that a rule reads. -/
def pattern : Rule → Pattern
  | .blanks => .blanks
  | .punctuator p => .char p.char
  | .word => .word
  | .underscored => .underscored
  | .number => .number
  | .leadingPoint => .leadingPoint

/-- Every rule reads at the place where the scan stands. -/
@[simp] theorem anchored_pattern (r : Rule) : r.pattern.anchored = true := by
  cases r <;> rfl

/-- What is wrong with a number, given its text and the character after
it. -/
def malformation? (literal : List Char) : Option Char → Option Malformation
  | none => none
  | some c =>
    if c = '.' then
      some (if literal.contains '.' then .secondPoint else .trailingPoint)
    else if Text.isNameChar c then
      some .nameSuffix
    else
      none

/-- The failure of a number at the start of a text: all that could belong
to the number is shown. -/
def malformedNumber (s : List Char) (reason : Malformation) : Failure :=
  .malformedNumber (String.ofList (Pattern.run.find s)) reason

/-- What a rule makes of a text that starts with its shape. -/
def verdict (r : Rule) (s : List Char) : Verdict :=
  let text := r.pattern.find s
  match r with
  | .blanks => .skip
  | .punctuator p => .token (.punctuator p)
  | .word => .token (Kind.ofWord text)
  | .underscored => .fault (.invalidIdentifier (String.ofList text))
  | .number =>
    match malformation? text (s.drop text.length).head? with
    | some reason => .fault (malformedNumber s reason)
    | none => .token (.constant (Number.ofLiteral text))
  | .leadingPoint => .fault (malformedNumber s .missingWhole)

end Rule

end MiniC
