import LinearProgram.Model.Text
import LinearProgram.Solution.Basic
import LinearProgram.Text.Column

/-!
# Reports to read

A report names the status and then, where the solution has values to show, the objective, the variables
and the constraints. Rows follow the model's order of declaration, and numbers come from the solution,
by identifier: a model's row appears exactly when the solution has a number for it.
-/

namespace LinearProgram.Report

open Decimal (fixed plain)
open Text (alignLeft alignRight)

/-- The width of the column of identifiers. -/
def idWidth : Nat := 20

/-- The width of the column of numbers. -/
def numberWidth : Nat := 12

/-- The digits after the point of every number. -/
def places : Nat := 4

/-- A row of the table: an identifier and a number. -/
def row (id : String) (value : Float) : String :=
  "  " ++ alignLeft idWidth id ++ " " ++ alignRight numberWidth (fixed places value)

/-- The row of a variable, if the solution has its value. -/
def variableRow? (s : Solution Float) (v : Variable) : Option String :=
  (s.value? v.id).map (row v.id)

/-- The row of a constraint, if the solution has its left-hand side. -/
def constraintRow? (s : Solution Float) (c : Constraint Float) : Option String :=
  (s.activity? c.id).map fun activity =>
    row c.id activity ++ "  (" ++ c.relation.symbol ++ " " ++ plain c.bound ++ ")"

/-- The line of the objective, if the solution has its value. -/
def objectiveLine? (m : Model Float) (s : Solution Float) : Option String :=
  s.objective?.map fun value =>
    "Objective (" ++ m.objective.sense.text ++ "): " ++ fixed places value

/-- The lines of the values. -/
def valueLines (m : Model Float) (s : Solution Float) : List String :=
  (objectiveLine? m s).toList
    ++ ["", "Decision variables:"] ++ m.vars.filterMap (variableRow? s)
    ++ ["", "Constraints:"] ++ m.constraints.filterMap (constraintRow? s)

/-- The lines after the status. -/
def body (m : Model Float) (s : Solution Float) : List String :=
  match s.status with
  | .infeasible => ["No solution exists that satisfies all constraints."]
  | .unbounded => ["The problem has no finite optimal solution."]
  | .error => ["Solver error: " ++ s.message?.getD "unknown error"]
  | .timeLimitReached =>
    if s.hasValues then
      "Best solution found so far (not proven optimal)." :: valueLines m s
    else ["No feasible solution was found within the time limit."]
  | .optimal => valueLines m s

/-- The lines of a report. -/
def lines (m : Model Float) (s : Solution Float) : List String :=
  ("Status: " ++ s.status.text) :: body m s

/-- A report; every line ends with a line feed. -/
def text (m : Model Float) (s : Solution Float) : String :=
  String.join ((lines m s).map (· ++ "\n"))

end LinearProgram.Report
