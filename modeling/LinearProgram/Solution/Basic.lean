import LinearProgram.Model.Basic

/-!
# Solutions

A solution is the answer to one attempt to solve a model. With a point it lists the value of every
variable, the left-hand side of every constraint and the objective value, all evaluated by the model's own
expressions; without one it is a status, and for an error a message.
-/

namespace LinearProgram

/-- The outcome of an attempt. -/
inductive Status where
  | optimal
  | infeasible
  | unbounded
  | timeLimitReached
  | error
  deriving DecidableEq, Repr

/-- A number under an identifier. -/
structure Entry (K : Type) where
  id : String
  value : K
  deriving DecidableEq, Repr

/-- The answer to one attempt. -/
structure Solution (K : Type) where
  status : Status
  objective? : Option K
  values : List (Entry K)
  activities : List (Entry K)
  message? : Option String
  deriving DecidableEq, Repr

variable {K : Type}

/-- The value of a variable at a point given in the order of declaration; zero for a variable that the
point does not reach or the model does not declare. -/
def Model.valueAt [Zero K] (m : Model K) (point : List K) (id : String) : K :=
  match m.indexOf? id with
  | some j => point.getD j 0
  | none => 0

namespace Solution

section Scalar

variable [Scalar K]

/-- The solution at a point. -/
def atPoint (m : Model K) (status : Status) (point : List K) : Solution K where
  status := status
  objective? := some (m.objective.expression.evaluate (m.valueAt point))
  values := m.vars.map fun v => ⟨v.id, m.valueAt point v.id⟩
  activities := m.constraints.map fun c => ⟨c.id, c.expression.evaluate (m.valueAt point)⟩
  message? := none

end Scalar

/-- The solution without a point. -/
def bare (status : Status) : Solution K :=
  ⟨status, none, [], [], none⟩

/-- An optimal point. -/
def optimal [Scalar K] (m : Model K) (point : List K) : Solution K :=
  atPoint m .optimal point

/-- The time is over; the best point so far, if there is one. -/
def timeLimitReached [Scalar K] (m : Model K) (incumbent? : Option (List K)) : Solution K :=
  match incumbent? with
  | some point => atPoint m .timeLimitReached point
  | none => bare .timeLimitReached

/-- No point satisfies the constraints. -/
def infeasible : Solution K :=
  bare .infeasible

/-- The objective can be improved without end. -/
def unbounded : Solution K :=
  bare .unbounded

/-- The attempt failed. -/
def error (message : String) : Solution K :=
  { bare .error with message? := some message }

/-- The value listed for a variable. -/
def value? (s : Solution K) (id : String) : Option K :=
  (s.values.find? fun e => e.id == id).map Entry.value

/-- The left-hand side listed for a constraint. -/
def activity? (s : Solution K) (id : String) : Option K :=
  (s.activities.find? fun e => e.id == id).map Entry.value

/-- Whether values of variables are listed. -/
def hasValues (s : Solution K) : Bool :=
  !s.values.isEmpty

end Solution

/-- A status in words. -/
def Status.text : Status → String
  | .optimal => "OPTIMAL"
  | .infeasible => "INFEASIBLE"
  | .unbounded => "UNBOUNDED"
  | .timeLimitReached => "TIME LIMIT REACHED"
  | .error => "ERROR"

/-- A status as a word of a JSON document. -/
def Status.key : Status → String
  | .optimal => "optimal"
  | .infeasible => "infeasible"
  | .unbounded => "unbounded"
  | .timeLimitReached => "time-limit-reached"
  | .error => "error"

end LinearProgram
