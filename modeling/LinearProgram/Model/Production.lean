import LinearProgram.Model.Draft

/-!
# A production plan

The example model of the command line: the weekly output of two products `x` and `y`. Demand caps `x`,
two labour pools bound the combined output, and the profit is to be maximized.
-/

namespace LinearProgram.Production

variable {K : Type} [Scalar K]

/-- The limits on the output, without an objective. -/
def draft : Except ModelError (Draft K) := do
  let d ← (Draft.empty : Draft K).declare "x" .nonNegativeReals
  let d ← d.declare "y" .nonNegativeReals
  let d ← d.constrain "demand" (.ofList [("x", 1)]) .le (40 : Nat)
  let d ← d.constrain "labor_a" (.ofList [("x", 1), ("y", 1)]) .le (80 : Nat)
  d.constrain "labor_b" (.ofList [("x", (2 : Nat)), ("y", 1)]) .le (100 : Nat)

/-- What a unit of each product earns. -/
def profit : LinearExpr K :=
  .ofList [("x", (40 : Nat)), ("y", (30 : Nat))]

/-- The plan with the largest profit. -/
def model : Except ModelError (Model K) := do
  let d : Draft K ← draft
  let d ← d.pursue profit .maximize
  d.finish

end LinearProgram.Production
