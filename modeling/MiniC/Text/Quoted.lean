import MiniC.Text.Visible

/-!
Quoted texts: how a diagnosis shows a piece of a source.

A text stands between double quotes. A backslash starts every escape, so
it and the quote are escaped themselves, which is what makes the end of a
quoted text and each character of it readable again. Characters that do
not show are written as their code point.
-/

namespace MiniC.Text.Quoted

/-- A code point in lower-case hexadecimal, between braces. -/
def codePoint (c : Char) : List Char :=
  '\\' :: 'u' :: '{' :: Nat.toDigits 16 c.toNat ++ ['}']

/-- The letter after the backslash for the characters that have one. -/
def letter? (c : Char) : Option Char :=
  if c = '\x00' then some '0'
  else if c = '\t' then some 't'
  else if c = '\r' then some 'r'
  else if c = '\n' then some 'n'
  else if c = '\\' then some '\\'
  else if c = '"' then some '"'
  else none

/-- How a character is written between quotes. -/
def escape (c : Char) : List Char :=
  match letter? c with
  | some l => ['\\', l]
  | none => if isVisible c then [c] else codePoint c

/-- A text between quotes. -/
def encode (s : List Char) : List Char :=
  '"' :: s.flatMap escape ++ ['"']

/-- A string between quotes. -/
def quote (s : String) : String :=
  String.ofList (encode s.toList)

end MiniC.Text.Quoted
