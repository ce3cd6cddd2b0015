import LinearProgram.Decimal.Shortest

/-!
# Positional text of doubles

`plain` writes the shortest digits that read back, always positionally; `fixed` rounds the exact
binary value to a number of places, a half to the even neighbour. Both keep the sign of a zero and
write `inf`, `-inf` and `NaN`.
-/

namespace LinearProgram.Decimal

/-- `digits · 10 ^ exponent` without an exponent mark, and without a point if it is an integer. -/
def Digits.positional (d : Digits) : String :=
  let text := natText d.digits
  if 0 ≤ d.exponent then
    text ++ String.ofList (List.replicate d.exponent.toNat '0')
  else
    let places := (-d.exponent).toNat
    if places < text.length then
      let whole := text.length - places
      String.ofList (text.toList.take whole) ++ "." ++ String.ofList (text.toList.drop whole)
    else
      "0." ++ String.ofList (List.replicate (places - text.length) '0') ++ text

/-- A minus sign for a set sign bit. -/
def signText (negative : Bool) : String :=
  if negative then "-" else ""

/-- The text of an infinity or of "not a number". -/
def specialText (x : Float) : String :=
  if x.isNaN then "NaN" else if x < 0 then "-inf" else "inf"

/-- The shortest text that reads back as `x`, positional at every size; of two equally near decimals
the larger is taken. -/
def plain (x : Float) : String :=
  match Binary.ofFloat? x with
  | none => specialText x
  | some b => signText b.negative ++ (b.shortest .up).positional

/-- `num / den` rounded to the nearest integer, a half to the even one. -/
def roundHalfEven (num den : Nat) : Nat :=
  let floor := num / den
  let twice := 2 * (num % den)
  if twice < den then floor
  else if den < twice then floor + 1
  else floor + floor % 2

/-- `x` with exactly `places` digits after the point. -/
def fixed (places : Nat) (x : Float) : String :=
  match Binary.ofFloat? x with
  | none => specialText x
  | some b =>
    let one := Nat.pow 10 places
    let scaled := roundHalfEven (b.mantissa * powPos 2 b.exponent * one)
      (powNeg 2 b.exponent)
    let whole := natText (scaled / one)
    let part := natText (scaled % one)
    let zeros := String.ofList (List.replicate (places - part.length) '0')
    signText b.negative ++ whole ++ (if places = 0 then "" else "." ++ zeros ++ part)

end LinearProgram.Decimal
