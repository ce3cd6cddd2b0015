import LinearProgram.Decimal.Binary

/-!
# Reading decimals

`read?` accepts an optional sign followed by `inf`, `infinity` or `nan` in any case, or by digits with
at most one point and an optional exponent. One side of the point may be empty, not both. The value is
rounded correctly; too large a number reads as infinity and too small a one as zero.
-/

namespace LinearProgram.Decimal

/-- The value of an ASCII digit. -/
def digitValue (c : Char) : Nat :=
  c.toNat - '0'.toNat

/-- The number a list of ASCII digits stands for. -/
def ofDigits (cs : List Char) : Nat :=
  cs.foldl (fun n c => 10 * n + digitValue c) 0

/-- Powers of ten beyond this one are out of the range of doubles in either direction. -/
def exponentBound : Int := 400

/-- `mantissa · 10 ^ exponent` as the nearest double. Far outside the range the result is known without
raising ten to the exponent. -/
def scaled (mantissa : Nat) (exponent : Int) : Float :=
  let magnitude := exponent + (digitCount mantissa : Int)
  if mantissa = 0 then 0.0
  else if exponentBound < magnitude then 1.0 / 0.0
  else if magnitude < -exponentBound then 0.0
  else if 0 ≤ exponent then Float.ofScientific mantissa false exponent.toNat
  else Float.ofScientific mantissa true (-exponent).toNat

/-- The sign in front of a number and what follows it. -/
def splitSign : List Char → Bool × List Char
  | '-' :: cs => (true, cs)
  | '+' :: cs => (false, cs)
  | cs => (false, cs)

/-- The digits at the front and what follows them. -/
def splitDigits (cs : List Char) : List Char × List Char :=
  (cs.takeWhile Char.isDigit, cs.dropWhile Char.isDigit)

/-- What follows the mantissa: nothing, or `e`, a sign and at least one digit. -/
def readExponent? : List Char → Option Int
  | [] => some 0
  | e :: cs =>
    if e = 'e' ∨ e = 'E' then
      let (negative, rest) := splitSign cs
      let (digits, tail) := splitDigits rest
      if digits.isEmpty || !tail.isEmpty then none
      else some (if negative then -(ofDigits digits : Int) else ofDigits digits)
    else none

/-- An unsigned number in digits. -/
def readDigits? (cs : List Char) : Option Float :=
  let (whole, rest) := splitDigits cs
  let (part, tail) := match rest with
    | '.' :: after => splitDigits after
    | _ => ([], rest)
  if whole.isEmpty && part.isEmpty then none
  else (readExponent? tail).map fun e => scaled (ofDigits (whole ++ part)) (e - part.length)

/-- The double that a text stands for, if it stands for one. -/
def read? (text : String) : Option Float :=
  let (negative, body) := splitSign text.toList
  let word := String.ofList (body.map Char.toLower)
  let magnitude :=
    if word = "inf" ∨ word = "infinity" then some (1.0 / 0.0)
    else if word = "nan" then some (0.0 / 0.0)
    else readDigits? body
  magnitude.map fun x => if negative then -x else x

end LinearProgram.Decimal
