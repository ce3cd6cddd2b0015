import LinearProgram.Model.Draft
import LinearProgram.Decimal.Plain

/-!
# Models in words

The text of an expression has a sign between two terms, and in front of the first one only if it is a
minus; a coefficient of magnitude one is left out.
-/

namespace LinearProgram

open Decimal (plain)

/-- The sign in front of a term. Only a coefficient below zero has a minus. -/
def Term.signText (first : Bool) (coefficient : Float) : String :=
  match first, Scalar.lt coefficient 0 with
  | true, false => ""
  | true, true => "-"
  | false, false => " + "
  | false, true => " - "

/-- A term with its sign. -/
def Term.text (first : Bool) (t : Term Float) : String :=
  let magnitude := Scalar.abs t.coefficient
  let factor := if Scalar.eq magnitude 1 then "" else plain magnitude ++ "*"
  Term.signText first t.coefficient ++ factor ++ t.name

/-- An expression in words; the one without terms is `0`. -/
def LinearExpr.text (e : LinearExpr Float) : String :=
  match e.terms with
  | [] => "0"
  | t :: ts => t.text true ++ String.join (ts.map (Term.text false))

/-- The sign of a relation. -/
def Relation.symbol : Relation → String
  | .le => "<="
  | .ge => ">="
  | .eq => "="

/-- A constraint in words, after its identifier. -/
def Constraint.text (c : Constraint Float) : String :=
  c.id ++ ": " ++ c.expression.text ++ " " ++ c.relation.symbol ++ " " ++ plain c.bound

/-- The sense in words. -/
def Sense.text : Sense → String
  | .maximize => "maximize"
  | .minimize => "minimize"

/-- An objective in words. -/
def Objective.text (o : Objective Float) : String :=
  o.sense.text ++ " " ++ o.expression.text

/-- The number that a domain's values stay below; infinity where there is no such number. -/
def Domain.upperText (d : Domain) : String :=
  plain ((d.upper? : Option Float).getD (1.0 / 0.0))

/-- A variable with the interval of its values. -/
def Variable.text (v : Variable) : String :=
  v.id ++ " in [" ++ plain v.domain.lower ++ ", " ++ v.domain.upperText ++ ")"

end LinearProgram
