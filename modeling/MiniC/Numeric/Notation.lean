import MiniC.Numeric.Shortest

/-!
How numbers are written.

A whole number is its decimal digits. A double is the shortest decimal
that reads back, positional where its first digit stands between the
fourth place after the point and the sixteenth before it, and otherwise
scientific. The positional form always shows a point, so that a double is
never taken for an integer.
-/

namespace MiniC

namespace Numeric

/-- The decimal digits of a whole number. -/
def digits (n : Nat) : List Char :=
  Nat.toDigits 10 n

/-- A whole number as text. -/
def natText (n : Nat) : String :=
  String.ofList (digits n)

/-- An integer as text, with a sign only below zero. -/
def intText : Int → String
  | .ofNat n => natText n
  | .negSucc n => "-" ++ natText (n + 1)

/-- Where the positional form gives way to the scientific one, by the
decimal exponent of the first digit. -/
structure PositionalRange where
  least : Int
  most : Int

/-- Positional from 0.0001 up to sixteen digits before the point. -/
def positional : PositionalRange :=
  { least := -4, most := 15 }

/-- `digits` with the point after the first `whole` of them, which are
filled up with zeros. -/
def positionalText (digits : List Char) (whole : Nat) : List Char :=
  let fraction := digits.drop whole
  digits.take whole ++ List.replicate (whole - digits.length) '0' ++
    '.' :: (if fraction.isEmpty then ['0'] else fraction)

/-- `digits` as a mantissa with one digit before the point, and the
exponent of that digit. -/
def scientificText (digits : List Char) (exponent : Int) : List Char :=
  let fraction := digits.drop 1
  digits.take 1 ++ (if fraction.isEmpty then [] else '.' :: fraction) ++
    'e' :: (intText exponent).toList

/-- A decimal in the form that its size asks for. Zeros at the end of the
coefficient are no digits of it. -/
def decimalText (d : Decimal) : List Char :=
  let all := digits d.coefficient
  let exponent := d.exponent + Int.ofNat (all.length - 1)
  let significant := (all.reverse.dropWhile (· == '0')).reverse
  if d.coefficient = 0 then
    ['0', '.', '0']
  else if exponent < positional.least ∨ positional.most < exponent then
    scientificText significant exponent
  else if exponent < 0 then
    '0' :: '.' :: List.replicate (exponent.natAbs - 1) '0' ++ significant
  else
    positionalText significant (exponent.toNat + 1)

end Numeric

/-- A double as the shortest text that reads back. -/
def Binary64.text : Binary64 → String
  | .finite x => String.ofList (Numeric.decimalText x.shortest)
  | .infinity => "inf"

end MiniC
