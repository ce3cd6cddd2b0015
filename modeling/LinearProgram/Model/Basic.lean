import LinearProgram.Model.Expr

/-!
# Linear programs

A model has variables, constraints and one objective, each kept in the order of declaration. That is
the order in which a solver is handed them and in which results are listed.
-/

namespace LinearProgram

/-- The values a variable may take. -/
inductive Domain where
  | nonNegativeReals
  deriving DecidableEq, Repr

/-- A decision variable. -/
structure Variable where
  id : String
  domain : Domain
  deriving DecidableEq, Repr

/-- How the left-hand side of a constraint relates to its bound. -/
inductive Relation where
  | le
  | ge
  | eq
  deriving DecidableEq, Repr

/-- The constraint that an expression stands in a relation to a bound. -/
structure Constraint (K : Type) where
  id : String
  expression : LinearExpr K
  relation : Relation
  bound : K
  deriving DecidableEq, Repr

/-- Whether larger or smaller objective values are better. -/
inductive Sense where
  | maximize
  | minimize
  deriving DecidableEq, Repr

/-- What is to be made large or small. -/
structure Objective (K : Type) where
  expression : LinearExpr K
  sense : Sense
  deriving DecidableEq, Repr

/-- A linear program. -/
structure Model (K : Type) where
  vars : List Variable
  constraints : List (Constraint K)
  objective : Objective K
  deriving DecidableEq, Repr

variable {K : Type}

/-- Whether `lhs` relates to `bound` as it should, give or take `tolerance`. -/
def Relation.holds [Scalar K] : Relation → (lhs bound tolerance : K) → Bool
  | .le, lhs, bound, tolerance => Scalar.le lhs (bound + tolerance)
  | .ge, lhs, bound, tolerance => Scalar.le (bound - tolerance) lhs
  | .eq, lhs, bound, tolerance => Scalar.le (Scalar.abs (lhs - bound)) tolerance

/-- The relation between the negated sides. -/
def Relation.flip : Relation → Relation
  | .le => .ge
  | .ge => .le
  | .eq => .eq

/-- Negating both sides twice changes nothing. -/
@[simp]
theorem Relation.flip_flip (r : Relation) : r.flip.flip = r := by
  cases r <;> rfl

/-- The least value of a domain. -/
def Domain.lower [Zero K] : Domain → K
  | .nonNegativeReals => 0

/-- The least number that a domain's values stay below; `none` where there is no such number. -/
def Domain.upper? : Domain → Option K
  | .nonNegativeReals => none

/-- The position of an identifier among declared variables. -/
def positionOf? (vars : List Variable) (id : String) : Option Nat :=
  vars.findIdx? fun v => v.id == id

/-- An identifier has no position exactly when no variable has it. -/
theorem positionOf?_eq_none_iff {vars : List Variable} {id : String} :
    positionOf? vars id = none ↔ id ∉ vars.map Variable.id := by
  simp [positionOf?]

namespace Model

/-- The position at which a variable was declared. -/
def indexOf? (m : Model K) (id : String) : Option Nat :=
  positionOf? m.vars id

/-- The number of variables. -/
def numVariables (m : Model K) : Nat :=
  m.vars.length

/-- The number of constraints. -/
def numConstraints (m : Model K) : Nat :=
  m.constraints.length

end Model

end LinearProgram
