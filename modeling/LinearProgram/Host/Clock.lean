import LinearProgram.Decimal.Plain
import LinearProgram.Host.Basic

/-!
# Budgets and deadlines

A budget is given in seconds and kept on a clock that counts nanoseconds: it is rounded to the nearest
nanosecond, a half to the even one, and added to the time at which it begins to run. A budget below zero
counts as none at all, and so does one that is not a number. A sum that the clock cannot show is no
deadline.
-/

namespace LinearProgram

/-- The nanoseconds in a second. -/
def nanosecondsPerSecond : Nat :=
  1000000000

/-- The first time that a clock with seconds of 63 bits cannot show. -/
def endOfTime : Nat :=
  Nat.pow 2 63 * nanosecondsPerSecond

/-- A budget of so many seconds in nanoseconds; `none` for one without an end. -/
def nanoseconds? (seconds : Float) : Option Nat :=
  if seconds.isNaN || seconds <= 0 then some 0
  else match Decimal.Binary.ofFloat? seconds with
    | none => none
    | some b =>
      some (Decimal.roundHalfEven
        (b.mantissa * Decimal.powPos 2 b.exponent * nanosecondsPerSecond)
        (Decimal.powNeg 2 b.exponent))

/-- When a budget of so many seconds is used up that begins to run at `start`, if it ever is. -/
def deadline? (start : Nat) (seconds : Float) : Option Nat :=
  match nanoseconds? seconds with
  | none => none
  | some budget => if start + budget < endOfTime then some (start + budget) else none

/-- Asks whether a deadline has passed. Without one, the clock is not looked at. -/
def Host.passed {m : Type → Type} [Monad m] (host : Host m) : Option Nat → m Bool
  | none => return false
  | some deadline => return decide (deadline ≤ (← host.now))

end LinearProgram
