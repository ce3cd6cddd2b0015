import LinearProgram.Backend
import LinearProgram.Limits.Reader

/-!
# Jobs: from a request to a solved model

A job reads its limits, builds its model and has it solved, in this order, and stops at the first
failure. A solver that ends with an error status has failed; infeasible, unbounded and interrupted are
outcomes.
-/

namespace LinearProgram

/-- Why a job has no outcome. -/
inductive Failure where
  | model (cause : ModelError)
  | limits (cause : LimitsError)
  | solver (cause : SolverError)
  | solve (solver message : String)

/-- The reason in words. -/
def Failure.message : Failure → String
  | .model cause => "Model error: " ++ cause.message
  | .limits cause => "Config error: " ++ cause.message
  | .solver cause => cause.message
  | .solve name text => "Solver " ++ name ++ " failed: " ++ text

/-- A model and its solution. -/
structure Outcome (K : Type) where
  model : Model K
  solution : Solution K

/-- What is asked for: a file of limits, if there is one, and a solver. -/
structure Request where
  limitsFile? : Option String
  backend : Backend

namespace Job

/-- What an error status without a message is reported as. -/
def unknownError : String :=
  "unknown error"

/-- What becomes of a solver's answer. -/
def conclude {K : Type} (solver : String) (model : Model K) :
    Except SolverError (Solution K) → Except Failure (Outcome K)
  | .error e => .error (.solver e)
  | .ok solution =>
    if solution.status = .error then
      .error (.solve solver (solution.message?.getD unknownError))
    else .ok ⟨model, solution⟩

variable {m : Type → Type} [Monad m] {K : Type}

/-- Has a model solved. -/
def solve (log : Event K → m Unit) (solver : Solver m K) (limits : Limits K) (model : Model K) :
    m (Except Failure (Outcome K)) := do
  log (.solving solver.name model.numVariables model.numConstraints)
  model.constraints.forM fun c => log (.constraint c)
  return conclude solver.name model (← solver.solve model limits)

/-- Builds a model and has it solved. -/
def buildAndSolve (log : Event K → m Unit) (solver : Solver m K) (limits : Limits K)
    (build : m (Except ModelError (Model K))) : m (Except Failure (Outcome K)) := do
  match ← build with
  | .error e => return .error (.model e)
  | .ok model => solve log solver limits model

/-- The limits in a file, or none where no file is named. -/
def readLimits (host : Host m) : Option String → m (Except LimitsError (Limits Float))
  | none => return .ok .unset
  | some path => return Limits.ofFile path (← host.contents path)

/-- Does what a request asks for. -/
def run (host : Host m) (request : Request) (build : m (Except ModelError (Model Float))) :
    m (Except Failure (Outcome Float)) := do
  match ← readLimits host request.limitsFile? with
  | .error e => return .error (.limits e)
  | .ok limits => buildAndSolve host.log (request.backend.solver host) limits build

end Job

end LinearProgram
