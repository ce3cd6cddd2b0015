import LinearProgram.Model.Basic

/-!
# Drafts: models under construction

A draft collects variables, constraints and an objective. Every addition is checked when it is made: a
refused addition says why and leaves the draft as it was, since the draft is a value. A draft with an
objective can be finished into a model.

Beside the lists a draft keeps what its checks look up: an index of the positions of the variables, and
the identifiers that constraints have taken. Every addition has to bring both up to date.
-/

namespace LinearProgram

/-- The part of a model that mentions variables. -/
inductive Place where
  | constraint (id : String)
  | objective
  deriving DecidableEq, Repr

/-- Why a draft refuses an addition or cannot be finished. -/
inductive ModelError where
  | duplicateIdentifier (id : String)
  | unknownVariable (name : String) (place : Place)
  | nonFiniteCoefficient (place : Place)
  | missingObjective
  deriving DecidableEq, Repr

/-- A place in words. -/
def Place.text : Place → String
  | .constraint id => "constraint '" ++ id ++ "'"
  | .objective => "objective"

/-- The reason in words. -/
def ModelError.message : ModelError → String
  | .duplicateIdentifier id => "Duplicate identifier: " ++ id
  | .unknownVariable name place =>
    "Unknown variable '" ++ name ++ "' referenced by " ++ place.text
  | .nonFiniteCoefficient place => "Non-finite coefficient or bound in " ++ place.text
  | .missingObjective => "Model has no objective"

/-- A model under construction. -/
structure Draft (K : Type) where
  vars : List Variable
  /-- The positions of the variables by their identifiers, the latest one first. -/
  index : List (String × Nat)
  constraints : List (Constraint K)
  /-- The identifiers of the constraints, the latest one first. -/
  reserved : List String
  objective? : Option (Objective K)
  deriving DecidableEq, Repr

namespace Draft

variable {K : Type}

/-- The draft of nothing. -/
def empty : Draft K :=
  ⟨[], [], [], [], none⟩

/-- The position of a variable in the index. -/
def indexOf? (d : Draft K) (id : String) : Option Nat :=
  d.index.lookup id

/-- Whether a variable of that identifier is declared. -/
def declares (d : Draft K) (id : String) : Bool :=
  (d.indexOf? id).isSome

/-- Whether a constraint has that identifier. -/
def reserves (d : Draft K) (id : String) : Bool :=
  d.reserved.contains id

/-- Declares a variable under an identifier that no other variable has. -/
def declare (d : Draft K) (id : String) (domain : Domain) : Except ModelError (Draft K) :=
  if d.declares id then .error (.duplicateIdentifier id)
  else .ok { d with
    vars := d.vars ++ [⟨id, domain⟩]
    index := (id, d.vars.length) :: d.index }

/-- The first name in an expression that is not declared. -/
def undeclared? (d : Draft K) (e : LinearExpr K) : Option String :=
  e.names.find? fun name => !d.declares name

variable [Scalar K]

/-- Refuses an expression that mentions an undeclared variable or has a coefficient that is not
finite, in this order. `finite` tells the same of the numbers beside the expression. -/
def check (d : Draft K) (place : Place) (e : LinearExpr K) (finite : Bool) :
    Except ModelError Unit :=
  match d.undeclared? e with
  | some name => .error (.unknownVariable name place)
  | none => if e.isFinite && finite then .ok () else .error (.nonFiniteCoefficient place)

/-- Adds a constraint under an identifier that no other constraint has. -/
def constrain (d : Draft K) (id : String) (expression : LinearExpr K) (relation : Relation)
    (bound : K) : Except ModelError (Draft K) :=
  if d.reserves id then .error (.duplicateIdentifier id)
  else match d.check (.constraint id) expression (Scalar.isFinite bound) with
    | .error e => .error e
    | .ok () =>
      .ok { d with
        constraints := d.constraints ++ [⟨id, expression, relation, bound⟩]
        reserved := id :: d.reserved }

/-- Sets the objective, in place of an earlier one. -/
def pursue (d : Draft K) (expression : LinearExpr K) (sense : Sense) :
    Except ModelError (Draft K) :=
  match d.check .objective expression true with
  | .error e => .error e
  | .ok () => .ok { d with objective? := some ⟨expression, sense⟩ }

omit [Scalar K] in
/-- The model that the draft describes, once it has an objective. -/
def finish (d : Draft K) : Except ModelError (Model K) :=
  match d.objective? with
  | none => .error .missingObjective
  | some objective => .ok ⟨d.vars, d.constraints, objective⟩

end Draft

end LinearProgram
