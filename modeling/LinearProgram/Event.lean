import LinearProgram.Limits.Basic
import LinearProgram.Model.Text
import LinearProgram.Simplex.Method
import LinearProgram.Solution.Basic

/-!
# Events

What the program reports while it works. An event is a value; how it is written into a log is a matter
of `Event.line`.
-/

namespace LinearProgram

/-- Something worth reporting. -/
inductive Event (K : Type) where
  | solving (solver : String) (numVariables numConstraints : Nat)
  | constraint (c : Constraint K)
  | limitIgnored (solver : String) (limit : Limit) (value : K)
  | madeDense (numVariables numConstraints : Nat) (sense : Sense)
  | simplex (step : Simplex.Step)
  | modelFileWritten
  | engineSays (line : String)
  | finished (solver : String) (status : Status)

/-- How much attention an event asks for. -/
inductive Level where
  | trace
  | debug
  | info
  | warn
  deriving DecidableEq, Repr

/-- A level in words. -/
def Level.text : Level → String
  | .trace => "TRACE"
  | .debug => "DEBUG"
  | .info => "INFO"
  | .warn => "WARN"

/-- An event as a log shows it. -/
structure LogLine where
  level : Level
  message : String
  fields : List (String × String)
  /-- Set for what the external engine prints. -/
  fromEngine : Bool

namespace Event

open Decimal (natText plain)

/-- A truth value in words. -/
def boolText (b : Bool) : String :=
  if b then "true" else "false"

/-- A step of the simplex method as a log shows it. -/
def stepLine : Simplex.Step → LogLine
  | .pivot row col degenerate =>
    ⟨.trace, "Pivot",
      [("pivot_row", natText row), ("pivot_col", natText col), ("degenerate", boolText degenerate)],
      false⟩
  | .converged pivots => ⟨.debug, "Simplex phase converged", [("iterations", natText pivots)], false⟩
  | .deadline pivots => ⟨.debug, "Simplex deadline reached", [("iterations", natText pivots)], false⟩
  | .expel row col =>
    ⟨.trace, "Degenerate pivot removing artificial", [("row", natText row), ("col", natText col)],
      false⟩
  | .dropRedundant row => ⟨.debug, "Dropping redundant equality row", [("row", natText row)], false⟩

/-- An event as a log shows it. -/
def line : Event Float → LogLine
  | .solving solver numVariables numConstraints =>
    ⟨.info, "Solving model",
      [("backend", solver), ("variables", natText numVariables), ("constraints", natText numConstraints)],
      false⟩
  | .constraint c => ⟨.debug, c.text, [("constraint", c.id)], false⟩
  | .limitIgnored solver limit value =>
    ⟨.warn, "Option not supported by backend; using backend default",
      [("backend", solver), ("option", limit.key), ("value", plain value)], false⟩
  | .madeDense numVariables numConstraints sense =>
    ⟨.debug, "Translated model to dense form",
      [("variables", natText numVariables), ("constraints", natText numConstraints),
        ("sense", sense.text)], false⟩
  | .simplex step => stepLine step
  | .modelFileWritten => ⟨.debug, "Wrote LP file", [], false⟩
  | .engineSays text => ⟨.debug, text, [], true⟩
  | .finished solver status =>
    ⟨.info, "Solve finished", [("backend", solver), ("status", status.text)], false⟩

end Event

end LinearProgram
