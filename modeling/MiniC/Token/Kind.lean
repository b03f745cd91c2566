import MiniC.Numeric.Notation

/-!
What a token can be.

Punctuators and keywords have one spelling each. An identifier carries its
name and a constant the value that its digits denote, so that the kinds of
a source say all about it except where things stand.
-/

namespace MiniC

/-- The single characters that are tokens. -/
inductive Punctuator where
  | openParen
  | closeParen
  | openBrace
  | closeBrace
  | semicolon
deriving DecidableEq

/-- The words that are no names. -/
inductive Keyword where
  | int
  | void
  | ret
deriving DecidableEq

/-- The value of a constant: a signed word of 64 bits where one is wide
enough for a literal without a point, and else a double. -/
inductive Number where
  | integer (value : Int64)
  | float (value : Binary64)
deriving DecidableEq

/-- What a token is, apart from its place. -/
inductive Kind where
  | identifier (name : String)
  | constant (value : Number)
  | punctuator (p : Punctuator)
  | keyword (k : Keyword)
deriving DecidableEq

-- ============================================================ spellings

namespace Punctuator

/-- Every punctuator, in the order of the rules that read them. -/
def all : List Punctuator :=
  [.openParen, .closeParen, .openBrace, .closeBrace, .semicolon]

/-- The character that a punctuator is written as. -/
def char : Punctuator → Char
  | .openParen => '('
  | .closeParen => ')'
  | .openBrace => '{'
  | .closeBrace => '}'
  | .semicolon => ';'

/-- The name of a punctuator in token listings. -/
def label : Punctuator → String
  | .openParen => "OpenParen"
  | .closeParen => "CloseParen"
  | .openBrace => "OpenBrace"
  | .closeBrace => "CloseBrace"
  | .semicolon => "Semicolon"

end Punctuator

namespace Keyword

/-- The word that a keyword is written as. -/
def word : Keyword → String
  | .int => "int"
  | .void => "void"
  | .ret => "return"

/-- The name of a keyword in token listings. -/
def label : Keyword → String
  | .int => "Int"
  | .void => "Void"
  | .ret => "Return"

/-- The table of reserved words. -/
def ofWord? (word : String) : Option Keyword :=
  if word = "int" then some .int
  else if word = "void" then some .void
  else if word = "return" then some .ret
  else none

/-- The table and the spellings agree: a word is reserved exactly if some
keyword is written so. -/
theorem ofWord?_eq_some_iff {word : String} {k : Keyword} :
    ofWord? word = some k ↔ word = k.word := by
  constructor
  · intro h
    unfold ofWord? at h
    split at h
    · cases h; assumption
    split at h
    · cases h; assumption
    split at h
    · cases h; assumption
    · cases h
  · rintro rfl
    cases k <;> decide

end Keyword

namespace Number

/-- The value of a literal: digits, possibly with one point among them. A
literal without a point is an integer as long as it fits into 64 bits with
a sign; what is wider, or has a point, is the double nearest to it. -/
def ofLiteral (literal : List Char) : Number :=
  let whole := literal.takeWhile (· != '.')
  let fraction := (literal.dropWhile (· != '.')).drop 1
  let coefficient := Nat.ofDigitChars 10 (whole ++ fraction) 0
  if literal.contains '.' then
    .float (.nearest coefficient (Nat.pow 10 fraction.length))
  else if coefficient < 1 <<< 63 then
    .integer (Int64.ofNat coefficient)
  else
    .float (.nearest coefficient 1)

/-- A constant's value as text. -/
def text : Number → String
  | .integer value => Numeric.intText value.toInt
  | .float value => value.text

end Number

namespace Kind

/-- The kind of a whole word: a keyword if it is reserved, else a name. -/
def ofWord (word : List Char) : Kind :=
  match Keyword.ofWord? (String.ofList word) with
  | some k => .keyword k
  | none => .identifier (String.ofList word)

/-- The spelling of a kind that has only one. -/
def lexeme? : Kind → Option String
  | .identifier _ => none
  | .constant _ => none
  | .punctuator p => some p.char.toString
  | .keyword k => some k.word

/-- The name of a kind in token listings. -/
def label : Kind → String
  | .identifier _ => "Identifier"
  | .constant _ => "Constant"
  | .punctuator p => p.label
  | .keyword k => k.label

/-- A kind in a token listing, with what it carries in parentheses. -/
def text : Kind → String
  | k@(.identifier name) => k.label ++ " (" ++ name ++ ")"
  | k@(.constant value) => k.label ++ " (" ++ value.text ++ ")"
  | k => k.label

end Kind

end MiniC
