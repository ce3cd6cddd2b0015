import LinearProgram.Decimal.Read
import LinearProgram.Engine.ModelFile
import LinearProgram.Solution.Basic
import LinearProgram.Host.File
import LinearProgram.Text.Blank
import LinearProgram.Text.Lines
import LinearProgram.Text.Start

/-!
# Solution files

The file in which the external engine leaves its answer: a status line, then one line for each variable
that is not zero, with the name that the model file gave it and its value. What else stands on such a
line, lines for other names, blank lines and the engine's own objective value are passed over. Of two
lines for a variable the later one counts. An engine without a solution says so in place of the values,
and nothing after that counts.
-/

namespace LinearProgram

/-- What a solution file says: the engine's status, and the values in the order of declaration unless
the engine has none. -/
structure SolutionFile where
  status : String
  point? : Option (List Float)

/-- Why a solution file cannot be read. -/
inductive SolutionFileError where
  | noStatus
  | malformedLine (line : String)
  | badValue (name value : String)
  deriving DecidableEq, Repr

/-- The reason in words. -/
def SolutionFileError.message : SolutionFileError → String
  | .noStatus => "missing solution status line"
  | .malformedLine line => "malformed solution line: " ++ line
  | .badValue name value => "invalid value for " ++ name ++ ": " ++ value

namespace SolutionFile

/-- The start of the status line. -/
def statusMark : List Char :=
  "solution status:".toList

/-- The start of the line with the engine's own objective value. -/
def objectiveMark : List Char :=
  "objective value:".toList

/-- The start of the line of an engine that has no solution. -/
def emptyMark : List Char :=
  "no solution available".toList

/-- The position of the variable that the model file names so, among the first `n`. -/
def columnOf? (n : Nat) (name : String) : Option Nat :=
  (List.range n).find? fun j => ModelFile.columnName j == name

/-- `point` with the value of a named variable; other names change nothing. -/
def assign (name : String) (value : Float) (point : List Float) : List Float :=
  match columnOf? point.length name with
  | some j => point.set j value
  | none => point

/-- The values in the lines after the status line, on top of those in `point`. -/
def readValues (point : List Float) :
    List (List Char) → Except SolutionFileError (Option (List Float))
  | [] => .ok (some point)
  | line :: rest =>
    if Text.startsWith objectiveMark line then readValues point rest
    else if Text.startsWith emptyMark line then .ok none
    else match Text.words line with
      | name :: value :: _ =>
        match Decimal.read? (String.ofList value) with
        | some x => readValues (assign (String.ofList name) x point) rest
        | none => .error (.badValue (String.ofList name) (String.ofList value))
      | _ => .error (.malformedLine (String.ofList line))

/-- The lines of a text without the blanks around them and without those that are blank. -/
def content (text : String) : List (List Char) :=
  ((Text.lines text.toList).map Text.trim).filter fun line => !line.isEmpty

/-- Reads the answer to a model with `n` variables. -/
def read (n : Nat) (text : String) : Except SolutionFileError SolutionFile :=
  match content text with
  | [] => .error .noStatus
  | first :: rest =>
    match Text.after? statusMark first with
    | none => .error .noStatus
    | some status =>
      match readValues (List.replicate n 0) rest with
      | .error e => .error e
      | .ok point? => .ok ⟨String.ofList (Text.trim status), point?⟩

/-- The status that the engine's words stand for. -/
def statusOf (words : String) : Status :=
  if words = "optimal solution found" ∨ words = "gap limit reached" then .optimal
  else if words = "infeasible" then .infeasible
  else if words = "unbounded" then .unbounded
  else if words = "time limit reached" then .timeLimitReached
  else .error

/-- The solution that a file describes. An optimal solution needs values. -/
def toSolution (m : Model Float) (file : SolutionFile) : Solution Float :=
  match statusOf file.status, file.point? with
  | .optimal, some point => .optimal m point
  | .timeLimitReached, point? => .timeLimitReached m point?
  | .infeasible, _ => .infeasible
  | .unbounded, _ => .unbounded
  | _, _ => .error ("scip reported: " ++ file.status)

/-- The solution in the text of a file. -/
def solutionOf (m : Model Float) (text : String) : Solution Float :=
  match read m.numVariables text with
  | .ok file => file.toSolution m
  | .error e => .error ("unreadable scip solution: " ++ e.message)

/-- The solution in a file, or the error that there is none. -/
def solutionIn (m : Model Float) (contents : Except FileError ByteArray) : Solution Float :=
  match textOf contents with
  | .ok text => solutionOf m text
  | .error e => .error ("scip wrote no solution file: " ++ e.message)

end SolutionFile

end LinearProgram
