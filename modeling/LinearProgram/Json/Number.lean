import LinearProgram.Decimal.Plain

/-!
# Numbers in JSON texts

A double is written with its shortest digits, of two equally near decimals the one with an even last
digit, and always looks like a real number: an integral value keeps `.0`. Sizes from `1e-5` up to but
not including `1e16` are positional, all others have one digit before the point and a signed exponent.
JSON has no infinity and no "not a number"; `null` stands in their place.
-/

namespace LinearProgram.Json

open Decimal

/-- The least exponent of the first digit at which numbers are written positionally. -/
def leastPositional : Int := -5

/-- The greatest exponent of the first digit at which numbers are written positionally. -/
def greatestPositional : Int := 15

/-- `d.d…e±n`, where `n` is the exponent of the first digit. -/
def scientific (d : Digits) (first : Int) : String :=
  let text := (natText d.digits).toList
  let part := String.ofList (text.drop 1)
  let sign := if first < 0 then "-" else "+"
  String.ofList (text.take 1) ++ (if part.isEmpty then "" else "." ++ part) ++ "e" ++ sign
    ++ natText first.natAbs

/-- The text of a finite double. -/
def finiteText (b : Binary) : String :=
  let d := b.shortest .even
  let first := d.exponent + (digitCount d.digits : Int) - 1
  let magnitude :=
    if d.digits = 0 then "0.0"
    else if first < leastPositional || greatestPositional < first then scientific d first
    else if 0 ≤ d.exponent then d.positional ++ ".0"
    else d.positional
  signText b.negative ++ magnitude

/-- The JSON text of a double. -/
def numberText (x : Float) : String :=
  match Binary.ofFloat? x with
  | none => "null"
  | some b => finiteText b

end LinearProgram.Json
