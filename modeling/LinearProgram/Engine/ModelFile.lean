import LinearProgram.Model.Basic
import LinearProgram.Decimal.Plain

/-!
# Models as LP files

The file that tells the external engine what to solve, in the LP format. Variables are named `x0`, `x1`
and so on and constraints `c0`, `c1` and so on, by their positions, so that the model's own identifiers
need no escaping and results are matched by position. An expression without terms is written as `0 x0`.
-/

namespace LinearProgram.ModelFile

open Decimal (natText plain)

/-- The name of the variable declared at position `j`. -/
def columnName (j : Nat) : String :=
  "x" ++ natText j

/-- The name of the constraint declared at position `i`. -/
def rowName (i : Nat) : String :=
  "c" ++ natText i

/-- A signed product; only a coefficient below zero has a minus. -/
def product (j : Nat) (coefficient : Float) : String :=
  let sign := if Scalar.lt coefficient 0 then "-" else "+"
  " " ++ sign ++ " " ++ plain (Scalar.abs coefficient) ++ " " ++ columnName j

/-- The products of an expression. -/
def expression (m : Model Float) (e : LinearExpr Float) : String :=
  let products := e.terms.filterMap fun t =>
    (m.indexOf? t.name).map fun j => product j t.coefficient
  if products.isEmpty then " 0 " ++ columnName 0 else String.join products

/-- The word for the sense. -/
def senseWord : Sense → String
  | .maximize => "Maximize"
  | .minimize => "Minimize"

/-- The sign of a relation. -/
def relationSign : Relation → String
  | .le => "<="
  | .ge => ">="
  | .eq => "="

/-- The line of the constraint at position `i`. -/
def constraintLine (m : Model Float) (c : Constraint Float) (i : Nat) : String :=
  " " ++ rowName i ++ ":" ++ expression m c.expression ++ " " ++ relationSign c.relation ++ " "
    ++ plain c.bound

/-- The bounds of the variable at position `j`. -/
def boundLine (v : Variable) (j : Nat) : String :=
  match v.domain.upper? (K := Float) with
  | some upper => " " ++ plain v.domain.lower ++ " <= " ++ columnName j ++ " <= " ++ plain upper
  | none => " " ++ columnName j ++ " >= " ++ plain v.domain.lower

/-- The comment in front, which counts what follows. -/
def header (m : Model Float) : String :=
  "\\ lpkit model: " ++ natText m.numVariables ++ " variables, " ++ natText m.numConstraints
    ++ " constraints"

/-- The lines of the file. -/
def lines (m : Model Float) : List String :=
  [header m, senseWord m.objective.sense, " obj:" ++ expression m m.objective.expression, "Subject To"]
    ++ m.constraints.zipIdx.map (fun c => constraintLine m c.1 c.2)
    ++ ["Bounds"]
    ++ m.vars.zipIdx.map (fun v => boundLine v.1 v.2)
    ++ ["End"]

/-- The file; every line ends with a line feed. -/
def text (m : Model Float) : String :=
  String.join ((lines m).map (· ++ "\n"))

end LinearProgram.ModelFile
