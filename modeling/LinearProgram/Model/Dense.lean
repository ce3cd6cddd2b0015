import LinearProgram.Model.Basic

/-!
# The dense form of a model

A dense program has one column for every variable and one row for every constraint, both in the order of
declaration, and no names except for the reader of a diagnosis. It is what the simplex method works on.
-/

namespace LinearProgram

/-- A constraint by columns. -/
structure DenseRow (K : Type) where
  name : String
  coefficients : List K
  relation : Relation
  rhs : K
  deriving DecidableEq, Repr

/-- A linear program by columns. -/
structure DenseProgram (K : Type) where
  names : List String
  objective : List K
  sense : Sense
  rows : List (DenseRow K)
  deriving DecidableEq, Repr

variable {K : Type} [Scalar K]

/-- Adds a term to the column of its variable; a term of a variable that is not declared has none. -/
def Term.addTo (vars : List Variable) (columns : List K) (t : Term K) : List K :=
  match positionOf? vars t.name with
  | some j => columns.modify j (· + t.coefficient)
  | none => columns

/-- The coefficients of an expression by columns: every term is added to zeros. -/
def LinearExpr.dense (vars : List Variable) (e : LinearExpr K) : List K :=
  e.terms.foldl (Term.addTo vars) (List.replicate vars.length 0)

/-- A constraint by columns. -/
def Constraint.dense (vars : List Variable) (c : Constraint K) : DenseRow K :=
  ⟨c.id, c.expression.dense vars, c.relation, c.bound⟩

/-- A model by columns. -/
def Model.dense (m : Model K) : DenseProgram K where
  names := m.vars.map Variable.id
  objective := m.objective.expression.dense m.vars
  sense := m.objective.sense
  rows := m.constraints.map (Constraint.dense m.vars)

namespace DenseProgram

omit [Scalar K] in
/-- The number of columns. -/
def numVariables (p : DenseProgram K) : Nat :=
  p.names.length

omit [Scalar K] in
/-- The number of rows. -/
def numConstraints (p : DenseProgram K) : Nat :=
  p.rows.length

end DenseProgram

/-- The same constraint with a right-hand side that is not negative: where it is, both sides are
negated. -/
def DenseRow.oriented (r : DenseRow K) : DenseRow K :=
  if Scalar.le 0 r.rhs then r
  else { r with
    coefficients := r.coefficients.map (fun c => -c)
    relation := r.relation.flip
    rhs := -r.rhs }

/-! ## Sizes -/

@[simp]
theorem Term.length_addTo (vars : List Variable) (columns : List K) (t : Term K) :
    (t.addTo vars columns).length = columns.length := by
  unfold Term.addTo
  split <;> simp

/-- There is one column for every variable. -/
@[simp]
theorem LinearExpr.length_dense (vars : List Variable) (e : LinearExpr K) :
    (e.dense vars).length = vars.length := by
  have h : ∀ (ts : List (Term K)) (columns : List K),
      (ts.foldl (Term.addTo vars) columns).length = columns.length := by
    intro ts
    induction ts with
    | nil => intro _; rfl
    | cons t ts ih => intro columns; rw [List.foldl_cons, ih, Term.length_addTo]
  rw [LinearExpr.dense, h, List.length_replicate]

@[simp]
theorem DenseRow.length_oriented (r : DenseRow K) :
    r.oriented.coefficients.length = r.coefficients.length := by
  unfold DenseRow.oriented
  split <;> simp

@[simp]
theorem Model.numVariables_dense (m : Model K) : m.dense.numVariables = m.numVariables :=
  List.length_map _

@[simp]
theorem Model.numConstraints_dense (m : Model K) : m.dense.numConstraints = m.numConstraints :=
  List.length_map _

end LinearProgram
