import LinearProgram.Json.Value
import LinearProgram.Solution.Basic

/-!
# Reports for machines

A model and its solution as one JSON document. Members whose value is absent are left out.
-/

namespace LinearProgram

/-- The word for a domain. -/
def Domain.key : Domain → String
  | .nonNegativeReals => "NonNegativeReals"

/-- The word for a relation. -/
def Relation.key : Relation → String
  | .le => "Le"
  | .ge => "Ge"
  | .eq => "Eq"

/-- The word for a sense. -/
def Sense.key : Sense → String
  | .maximize => "Maximize"
  | .minimize => "Minimize"

/-- A variable as a JSON object. -/
def Variable.toJson (v : Variable) : Json :=
  .object [("id", .string v.id), ("domain", .string v.domain.key)]

/-- A term as a JSON object. -/
def Term.toJson (t : Term Float) : Json :=
  .object [("variable", .string t.name), ("coefficient", .number t.coefficient)]

/-- An expression as the list of its terms. -/
def LinearExpr.toJson (e : LinearExpr Float) : Json :=
  .list (e.terms.map Term.toJson)

/-- A constraint as a JSON object. -/
def Constraint.toJson (c : Constraint Float) : Json :=
  .object [("id", .string c.id), ("expression", c.expression.toJson),
    ("relation", .string c.relation.key), ("bound", .number c.bound)]

/-- An objective as a JSON object. -/
def Objective.toJson (o : Objective Float) : Json :=
  .object [("expression", o.expression.toJson), ("sense", .string o.sense.key)]

/-- A model as a JSON object. -/
def Model.toJson (m : Model Float) : Json :=
  .object [("variables", .list (m.vars.map Variable.toJson)),
    ("constraints", .list (m.constraints.map Constraint.toJson)),
    ("objective", m.objective.toJson)]

/-- A number under an identifier as a JSON object. -/
def Entry.toJson (e : Entry Float) : Json :=
  .object [("id", .string e.id), ("value", .number e.value)]

/-- A solution as a JSON object. -/
def Solution.toJson (s : Solution Float) : Json :=
  .object ([("status", .string s.status.key)]
    ++ (s.objective?.map fun x => ("objective_value", .number x)).toList
    ++ [("variables", .list (s.values.map Entry.toJson)),
      ("constraints", .list (s.activities.map Entry.toJson))]
    ++ (s.message?.map fun text => ("message", .string text)).toList)

namespace Report

/-- A model and its solution as a JSON object. -/
def document (m : Model Float) (s : Solution Float) : Json :=
  .object [("model", m.toJson), ("solution", s.toJson)]

/-- The text of the document, one item a line, with a line feed at the end. -/
def documentText (m : Model Float) (s : Solution Float) : String :=
  (document m s).indented 0 ++ "\n"

end Report

end LinearProgram
