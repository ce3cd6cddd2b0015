/-!
# The numbers a linear program is computed with

Models, the dense program, the tableau and the simplex method are written over any type with the
operations of `Scalar`. The program runs on `Float`; on `Rat` the same definitions compute exactly,
and that reading is what statements about feasibility and optimality are made of.

Comparisons are `Bool`-valued functions: on doubles a comparison with "not a number" is false, so
`lt` and `le` are not complements of each other there, and nothing below assumes that they are.
-/

namespace LinearProgram

/-- Arithmetic, comparisons and a finiteness test. No law is assumed. -/
class Scalar (K : Type) extends Zero K, One K, Neg K, Add K, Sub K, Mul K, Div K, NatCast K where
  /-- The magnitude of a number. -/
  abs : K → K
  /-- Strictly less. -/
  lt : K → K → Bool
  /-- Less or equal. -/
  le : K → K → Bool
  /-- Equality of numbers; the two zeros of `Float` are equal. -/
  eq : K → K → Bool
  /-- Neither infinite nor undefined. -/
  isFinite : K → Bool

/-- Double precision, one rounding per operation. -/
instance : Scalar Float where
  zero := 0.0
  one := 1.0
  neg x := -x
  add x y := x + y
  sub x y := x - y
  mul x y := x * y
  div x y := x / y
  natCast n := Float.ofNat n
  abs x := x.abs
  lt x y := decide (x < y)
  le x y := decide (x ≤ y)
  eq x y := x == y
  isFinite x := x.isFinite

/-- Exact arithmetic; every number is finite. -/
instance : Scalar Rat where
  zero := 0
  one := 1
  neg x := -x
  add x y := x + y
  sub x y := x - y
  mul x y := x * y
  div x y := x / y
  natCast n := (n : Rat)
  abs x := if x < 0 then -x else x
  lt x y := decide (x < y)
  le x y := decide (x ≤ y)
  eq x y := decide (x = y)
  isFinite _ := true

end LinearProgram
