/-!
# Doubles as integers times a power of two

Every printed or rounded number starts from the exact value of a double, which is an integer
multiple of a power of two. `Binary.ofFloat?` gives that integer and that power, and `none` for the
values that have none.
-/

namespace LinearProgram.Decimal

/-- The number `± mantissa · 2 ^ exponent`. -/
structure Binary where
  /-- The sign bit, kept for zero too. -/
  negative : Bool
  /-- At most 53 bits. -/
  mantissa : Nat
  exponent : Int
  deriving DecidableEq, Repr

namespace Binary

/-- The least exponent of a double; subnormal numbers and zero have it. -/
def minExponent : Int := -1074

/-- The mantissa of the least normal number at its exponent. -/
def hiddenBit : Nat := Nat.pow 2 52

/-- The exact value of a finite double; `none` for the infinities and for "not a number". -/
def ofFloat? (x : Float) : Option Binary :=
  let bits : Nat := x.toBits.toNat
  let negative := bits / (2048 * hiddenBit) == 1
  let biased : Nat := bits / hiddenBit % 2048
  let fraction : Nat := bits % hiddenBit
  if biased = 2047 then none
  else if biased = 0 then some ⟨negative, fraction, minExponent⟩
  else some ⟨negative, hiddenBit + fraction, (biased : Int) - 1075⟩

end Binary

/-- `base ^ e` when `e` is not negative, else one. -/
def powPos (base : Nat) (e : Int) : Nat :=
  Nat.pow base e.toNat

/-- `base ^ (-e)` when `e` is negative, else one. -/
def powNeg (base : Nat) (e : Int) : Nat :=
  Nat.pow base (-e).toNat

/-- How many decimal digits a natural number is written with. -/
def digitCount (n : Nat) : Nat :=
  (Nat.toDigits 10 n).length

/-- The text of a natural number in base ten. -/
def natText (n : Nat) : String :=
  String.ofList (Nat.toDigits 10 n)

end LinearProgram.Decimal
