import LinearProgram.Decimal.Binary

/-!
# The fewest decimal digits that read back

A double stands for every real number nearer to it than to its neighbours; the ends of that interval
belong to it when the mantissa is even. Its shortest decimal is a point of the coarsest decimal grid
`10 ^ k` that has a point inside the interval, and of two such points the nearer one. A grid has a
point inside exactly when one of the value's two neighbours on the grid is inside, so only those are
looked at. All arithmetic is on natural numbers, after scaling by the denominators.
-/

namespace LinearProgram.Decimal

/-- The number `digits · 10 ^ exponent`. -/
structure Digits where
  digits : Nat
  exponent : Int
  deriving DecidableEq, Repr

/-- Which of two equally near decimals is taken. -/
inductive Tie where
  /-- The larger one. -/
  | up
  /-- The one with an even last digit. -/
  | even
  deriving DecidableEq, Repr

namespace Digits

/-- Trailing zeros moved into the exponent. -/
def strip (n : Nat) (exponent : Int) : Digits :=
  if h : n ≠ 0 ∧ n % 10 = 0 then strip (n / 10) (exponent + 1) else ⟨n, exponent⟩
termination_by n
decreasing_by omega

end Digits

namespace Binary

/-- Distance from the value down to the end of its interval, in quarters of the last binary place:
half a place, or a quarter where the next smaller double has a smaller exponent. -/
def quartersBelow (b : Binary) : Nat :=
  if b.mantissa = hiddenBit ∧ b.exponent ≠ minExponent then 1 else 2

/-- The decimal on the grid `10 ^ k` that reads back as `b`, if there is one. -/
def onGrid? (tie : Tie) (b : Binary) (k : Int) : Option Digits :=
  let quarter := b.exponent - 2
  let unit := powPos 2 quarter * powNeg 10 k
  let den := powNeg 2 quarter * powPos 10 k
  let value := 4 * b.mantissa * unit
  let low := (4 * b.mantissa - b.quartersBelow) * unit
  let high := (4 * b.mantissa + 2) * unit
  let below := value / den
  let above := below + 1
  let closed := b.mantissa % 2 = 0
  let belowIn := if closed then decide (low ≤ below * den) else decide (low < below * den)
  let aboveIn := if closed then decide (above * den ≤ high) else decide (above * den < high)
  let toBelow := value - below * den
  let toAbove := above * den - value
  let takeAbove :=
    if toAbove < toBelow then true
    else if toBelow < toAbove then false
    else match tie with
      | .up => true
      | .even => below % 2 = 1
  if belowIn && aboveIn then some (Digits.strip (if takeAbove then above else below) k)
  else if belowIn then some (Digits.strip below k)
  else if aboveIn then some (Digits.strip above k)
  else none

/-- A power of ten above the value: the value is less than `10 ^ b.ceiling`. -/
def ceiling (b : Binary) : Int :=
  let num := b.mantissa * powPos 2 b.exponent
  let den := powNeg 2 b.exponent
  if den ≤ num then digitCount (num / den) else 2 - digitCount (den / num)

/-- The first grid with a hit, from `10 ^ k` downwards through `count + 1` grids. -/
def firstGrid (tie : Tie) (b : Binary) : Nat → Int → Digits
  | 0, k => (b.onGrid? tie k).getD ⟨0, 0⟩
  | count + 1, k => (b.onGrid? tie k).getD (b.firstGrid tie count (k - 1))

/-- The shortest decimal of a finite double's magnitude, without trailing zeros. Seventeen digits
always suffice, and `ceiling` may be one too large. -/
def shortest (tie : Tie) (b : Binary) : Digits :=
  if b.mantissa = 0 then ⟨0, 0⟩ else b.firstGrid tie 18 (b.ceiling - 1)

end Binary

end LinearProgram.Decimal
