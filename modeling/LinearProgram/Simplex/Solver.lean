import LinearProgram.Host.Clock
import LinearProgram.Solver

/-!
# The simplex method as a solver

It always answers. It keeps a limit on time, by looking at the machine's clock before every pivot; a gap
means nothing to it.

What a run finds depends on the clock only through this: whether a budget of so many seconds is used up
when a phase has made so many pivots. Where that is known (`Clock`), the answer and what is reported on
the way to it are functions of the model and its limits.
-/

namespace LinearProgram.Simplex

variable {K : Type}

/-- The name of the solver. -/
def solverName : String :=
  "simplex"

/-- The limits that the simplex method keeps. -/
def honours : Limit → Bool
  | .gap => false
  | .time => true

/-- The deadline that a budget of so many seconds leads to. -/
abbrev Clock (K : Type) := K → Deadline

/-- The clock that stands still: a budget of no nanosecond at all has passed before the first pivot, and
every other one outlasts the run. -/
def Clock.instant : Clock Float :=
  fun seconds _ _ => nanoseconds? seconds = some 0

/-- The deadline under the given limits. -/
def deadline (clock : Clock K) (limits : Limits K) : Deadline :=
  match limits.time? with
  | some seconds => clock seconds
  | none => .never

variable [Scalar K]

/-- The solution that a verdict stands for. -/
def Verdict.toSolution (s : Settings K) (m : Model K) : Verdict K → Solution K
  | .optimal point => .optimal m point
  | .infeasible => .infeasible
  | .unbounded => .unbounded
  | .timeLimit incumbent? => .timeLimitReached m incumbent?
  | .pivotLimit => .error ("iteration limit of " ++ Decimal.natText s.maxPivots ++ " reached")

/-- The run on a model. -/
def runOn (s : Settings K) (clock : Clock K) (m : Model K) (limits : Limits K) : Run K :=
  run s (deadline clock limits) m.dense

/-- The answer to a model. -/
def solve (s : Settings K) (clock : Clock K) (m : Model K) (limits : Limits K) : Solution K :=
  (runOn s clock m limits).verdict.toSolution s m

/-- What is reported before the first pivot. -/
def opening (m : Model K) (limits : Limits K) : List (Event K) :=
  limits.warnings solverName honours
    ++ [.madeDense m.dense.numVariables m.dense.numConstraints m.dense.sense]

/-- What is reported on the way to the answer. -/
def events (s : Settings K) (clock : Clock K) (m : Model K) (limits : Limits K) : List (Event K) :=
  opening m limits ++ (runOn s clock m limits).steps.map Event.simplex
    ++ [.finished solverName (solve s clock m limits).status]

/-- The solver on a machine. A budget begins to run as soon as the solver is called. -/
def solver {m : Type → Type} [Monad m] (host : Host m) (s : Settings Float) : Solver m Float where
  name := solverName
  honours := honours
  solve model limits := do
    let start ← host.now
    (opening model limits).forM host.log
    let found ← runM s (fun _ _ => host.passed (limits.time?.bind (deadline? start))) model.dense
    found.steps.forM fun step => host.log (.simplex step)
    let solution := found.verdict.toSolution s model
    host.log (.finished solverName solution.status)
    return .ok solution

end LinearProgram.Simplex
