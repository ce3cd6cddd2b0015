import LinearProgram.Engine.SolutionFile
import LinearProgram.Host.Basic
import LinearProgram.Solver
import LinearProgram.Text.Utf8

/-!
# The external engine as a solver

The model is written as an LP file into a scratch directory, the engine is started once with the commands
to read it, to keep the limits that are set, to optimize and to write its solution, and the solution file
is read back. Only an engine that cannot be found or started, or a scratch directory that cannot be used,
is an error of the solver; whatever a started engine does ends in a solution.
-/

namespace LinearProgram.Engine

/-- The name of the engine and of its program. -/
def solverName : String :=
  "scip"

/-- The engine keeps every limit. -/
def honours : Limit → Bool
  | .gap => true
  | .time => true

/-- The engine cannot be used for a reason. -/
def unavailable (reason : String) : SolverError :=
  .unavailable solverName reason

/-- The path of the model file in a scratch directory. -/
def modelPath (directory : String) : String :=
  directory ++ "/model.lp"

/-- The path of the solution file in a scratch directory. -/
def solutionPath (directory : String) : String :=
  directory ++ "/model.sol"

/-- The command that sets a limit. -/
def limitCommand : Limit × Float → String
  | (.gap, value) => "set limits gap " ++ Decimal.plain value
  | (.time, value) => "set limits time " ++ Decimal.plain value

/-- The commands of one solve. Dual reductions are switched off because with them the engine may end
undecided between infeasible and unbounded. -/
def commands (directory : String) (limits : Limits Float) : List String :=
  ["read " ++ modelPath directory, "set misc allowstrongdualreds FALSE",
    "set misc allowweakdualreds FALSE"]
    ++ limits.toList.map limitCommand
    ++ ["optimize", "write solution " ++ solutionPath directory, "quit"]

/-- The arguments of one solve. -/
def arguments (directory : String) (limits : Limits Float) : List String :=
  ["-c", String.intercalate " " (commands directory limits)]

/-- The lines that an engine has printed. -/
def printed (finished : Finished) : List String :=
  (Text.lines (Text.decodeLossy finished.stdout).toList).map String.ofList

/-- The error of an engine that ended without success. -/
def failure (finished : Finished) : Solution Float :=
  let complaint := String.ofList (Text.trim (Text.decodeLossy finished.stderr).toList)
  .error ("scip exited with " ++ finished.exit.text ++ ": " ++ complaint)

variable {m : Type → Type} [Monad m]

/-- The engine's program: the given one if it is a file, else the one of the engine's name. -/
def locate (host : Host m) (path? : Option String) : m (Except SolverError String) := do
  match path? with
  | some path =>
    if ← host.isFile path then return .ok path
    else return .error (unavailable (path ++ " does not exist"))
  | none =>
    match ← host.findProgram solverName with
    | some path => return .ok path
    | none =>
      return .error (unavailable (solverName ++ " not found on PATH: cannot find binary path"))

/-- The solution of an engine that has ended. The solution file counts only after success. -/
def conclude (host : Host m) (directory : String) (model : Model Float) (finished : Finished) :
    m (Solution Float) := do
  if finished.exit = .code 0 then
    return SolutionFile.solutionIn model (← host.contents (solutionPath directory))
  else return failure finished

/-- Solves a model with the engine at a path. -/
def exchange (host : Host m) (program : String) (model : Model Float) (limits : Limits Float) :
    m (Except SolverError (Solution Float)) := do
  (limits.warnings solverName honours).forM host.log
  match ← host.makeScratch with
  | .error e => return .error (.files e)
  | .ok directory =>
    match ← host.store (modelPath directory) (ModelFile.text model) with
    | .error e => return .error (.files e)
    | .ok () =>
      host.log .modelFileWritten
      match ← host.start program (arguments directory limits) with
      | .error e =>
        return .error (unavailable ("failed to start " ++ program ++ ": " ++ e.message))
      | .ok finished =>
        (printed finished).forM fun line => host.log (.engineSays line)
        let solution ← conclude host directory model finished
        host.log (.finished solverName solution.status)
        return .ok solution

/-- Solves a model with the engine at the given path or of the engine's name. -/
def solve (host : Host m) (path? : Option String) (model : Model Float) (limits : Limits Float) :
    m (Except SolverError (Solution Float)) := do
  match ← locate host path? with
  | .error e => return .error e
  | .ok program => exchange host program model limits

/-- The solver. -/
def solver (host : Host m) (path? : Option String) : Solver m Float where
  name := solverName
  honours := honours
  solve := solve host path?

end LinearProgram.Engine
