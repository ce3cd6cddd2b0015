import LinearProgram.Event

/-!
# Solvers

A solver answers a model under limits. Infeasible, unbounded and interrupted are answers; an error means
that no attempt could be made. Solving may have effects, which `m` stands for.
-/

namespace LinearProgram

/-- Why no attempt to solve was made. -/
inductive SolverError where
  | unavailable (solver reason : String)
  | files (cause : FileError)
  deriving DecidableEq, Repr

/-- The reason in words. -/
def SolverError.message : SolverError → String
  | .unavailable solver reason => "Solver backend " ++ solver ++ " is unavailable: " ++ reason
  | .files cause => "IO error: " ++ cause.message

/-- Something that solves models. -/
structure Solver (m : Type → Type) (K : Type) where
  /-- The name in reports and errors. -/
  name : String
  /-- The limits that the solver can keep. -/
  honours : Limit → Bool
  solve : Model K → Limits K → m (Except SolverError (Solution K))

/-- The limits that are set but not among those that `honours` allows. -/
def Limits.ignored {K : Type} (honours : Limit → Bool) (l : Limits K) : List (Limit × K) :=
  l.toList.filter fun e => !honours e.1

/-- The events that report them. -/
def Limits.warnings {K : Type} (solver : String) (honours : Limit → Bool) (l : Limits K) :
    List (Event K) :=
  (l.ignored honours).map fun e => .limitIgnored solver e.1 e.2

end LinearProgram
