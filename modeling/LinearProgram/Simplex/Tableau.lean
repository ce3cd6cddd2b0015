import LinearProgram.Model.Dense

/-!
# Simplex tableaux

A tableau holds equations that are equivalent to the constraints of a program after slack, surplus and
artificial variables have been added. Every row has a basic variable; a basic solution takes it to be
the right-hand side of its row and every other variable to be zero. The objective is an equation too:
its coefficients are the reduced costs, and a positive one belongs to a variable whose growth improves
the objective.

Columns come in three groups: the program's variables, then a slack or surplus column for every
inequality, then an artificial column for every row that a slack cannot start.
-/

namespace LinearProgram

variable {K : Type} [Scalar K]

/-! ## Equations -/

/-- The equation that the sum of coefficients times variables is the right-hand side. -/
structure Equation (K : Type) where
  coefficients : List K
  rhs : K
  deriving DecidableEq, Repr

namespace Equation

/-- The coefficient in a column; zero beyond the last one. -/
def entry (e : Equation K) (j : Nat) : K :=
  e.coefficients.getD j 0

/-- Both sides divided by `p`. -/
def divide (e : Equation K) (p : K) : Equation K :=
  ⟨e.coefficients.map (· / p), e.rhs / p⟩

/-- Both sides plus those of `f`. -/
def add (e f : Equation K) : Equation K :=
  ⟨List.zipWith (· + ·) e.coefficients f.coefficients, e.rhs + f.rhs⟩

/-- Both sides minus `factor` times those of `f`. -/
def subtract (e : Equation K) (factor : K) (f : Equation K) : Equation K :=
  ⟨List.zipWith (fun a b => a - factor * b) e.coefficients f.coefficients, e.rhs - factor * f.rhs⟩

/-- `e` freed of column `j` by means of an equation whose coefficient there is one. An equation that
does not have the column stays untouched. -/
def eliminate (e : Equation K) (j : Nat) (f : Equation K) : Equation K :=
  if Scalar.eq (e.entry j) 0 then e else e.subtract (e.entry j) f

@[simp]
theorem length_divide (e : Equation K) (p : K) :
    (e.divide p).coefficients.length = e.coefficients.length :=
  List.length_map _

/-- Subtracting an equation of the same width keeps the width. -/
theorem length_subtract {e f : Equation K} (h : f.coefficients.length = e.coefficients.length)
    (factor : K) : (e.subtract factor f).coefficients.length = e.coefficients.length := by
  simp [subtract, h]

/-- Eliminating a column by an equation of the same width keeps the width. -/
theorem length_eliminate {e f : Equation K} (h : f.coefficients.length = e.coefficients.length)
    (j : Nat) : (e.eliminate j f).coefficients.length = e.coefficients.length := by
  unfold eliminate
  split
  · rfl
  · exact length_subtract h _

end Equation

/-! ## Tableaux -/

/-- An equation and the variable it determines in the basic solution. -/
structure BasicRow (K : Type) where
  basic : Nat
  equation : Equation K
  deriving DecidableEq, Repr

/-- Equations with their basic variables, the reduced costs, and the sizes of the three groups of
columns. -/
structure Tableau (K : Type) where
  rows : List (BasicRow K)
  objective : Equation K
  numVariables : Nat
  numSlack : Nat
  numArtificial : Nat
  deriving DecidableEq, Repr

namespace Tableau

/-! ### The starting tableau -/

/-- Whether a row has a slack or surplus column. -/
def hasSlack (r : DenseRow K) : Bool :=
  r.relation != .eq

/-- Whether a row starts with an artificial variable. -/
def hasArtificial (r : DenseRow K) : Bool :=
  r.relation != .le

/-- The rows for oriented constraints, where `slack` and `artificial` are the next free columns of their
groups and `added` is the number of columns beyond the program's variables. A slack is added and is
basic, a surplus is taken away, and an artificial variable is added and is basic. -/
def layOut (added : Nat) : List (DenseRow K) → (slack artificial : Nat) → List (BasicRow K)
  | [], _, _ => []
  | r :: rs, slack, artificial =>
    let columns := r.coefficients ++ List.replicate added 0
    match r.relation with
    | .le => ⟨slack, columns.set slack 1, r.rhs⟩ :: layOut added rs (slack + 1) artificial
    | .ge =>
      ⟨artificial, (columns.set slack (-1)).set artificial 1, r.rhs⟩
        :: layOut added rs (slack + 1) (artificial + 1)
    | .eq => ⟨artificial, columns.set artificial 1, r.rhs⟩ :: layOut added rs slack (artificial + 1)

/-- Every constraint becomes one row. -/
@[simp]
theorem length_layOut (added : Nat) (rs : List (DenseRow K)) (slack artificial : Nat) :
    (layOut added rs slack artificial).length = rs.length := by
  induction rs generalizing slack artificial with
  | nil => rfl
  | cons r rs ih =>
    simp only [layOut]
    cases r.relation <;> simp [ih]

/-- The reduced costs of the program's variables at the start. The method maximizes, so that the
objective of a minimization is negated. -/
def startingCosts (p : DenseProgram K) : List K :=
  match p.sense with
  | .maximize => p.objective
  | .minimize => p.objective.map (fun c => -c)

/-- The starting tableau of a program. -/
def ofProgram (p : DenseProgram K) : Tableau K :=
  let oriented := p.rows.map DenseRow.oriented
  let numSlack := oriented.countP hasSlack
  let numArtificial := oriented.countP hasArtificial
  let added := numSlack + numArtificial
  { rows := layOut added oriented p.numVariables (p.numVariables + numSlack)
    objective := ⟨startingCosts p ++ List.replicate added 0, 0⟩
    numVariables := p.numVariables
    numSlack := numSlack
    numArtificial := numArtificial }

omit [Scalar K] in
/-- The first artificial column. -/
def firstArtificial (t : Tableau K) : Nat :=
  t.numVariables + t.numSlack

omit [Scalar K] in
/-- The number of columns. -/
def numColumns (t : Tableau K) : Nat :=
  t.numVariables + t.numSlack + t.numArtificial

omit [Scalar K] in
/-- Whether the basic variable of a row is artificial. -/
def isArtificial (t : Tableau K) (r : BasicRow K) : Bool :=
  t.firstArtificial ≤ r.basic

/-- The program's variables in the basic solution. -/
def point (t : Tableau K) : List K :=
  t.rows.foldl (fun values r => values.set r.basic r.equation.rhs)
    (List.replicate t.numVariables 0)

/-! ### Choosing a pivot -/

/-- The first column with the largest cost above `tolerance`. -/
def largestCost? (tolerance : K) (costs : List K) : Option Nat :=
  (costs.zipIdx.foldl
    (fun best c => if Scalar.lt best.1 c.1 then (c.1, some c.2) else best)
    (tolerance, none)).2

/-- The column that enters the basis, among the first `eligible`: the first one with a cost above
`tolerance` when `lowestIndex` is set, else the one with the largest cost. -/
def entering? (t : Tableau K) (tolerance : K) (eligible : Nat) (lowestIndex : Bool) : Option Nat :=
  let costs := t.objective.coefficients.take eligible
  if lowestIndex then costs.findIdx? (fun c => Scalar.lt tolerance c)
  else largestCost? tolerance costs

/-- The best row of a ratio test so far. -/
structure Candidate (K : Type) where
  ratio : K
  row : Nat
  basic : Nat

/-- One row of the ratio test. A row takes part if its coefficient is above `tolerance` and its ratio is
not negative. It beats the candidate with a ratio smaller by more than `tolerance`, or with one that is
larger by at most `tolerance` and a lower basic variable. -/
def ratioStep (tolerance : K) (col : Nat) (best? : Option (Candidate K)) (r : BasicRow K)
    (row : Nat) : Option (Candidate K) :=
  let coefficient := r.equation.entry col
  let ratio := r.equation.rhs / coefficient
  let own := some ⟨ratio, row, r.basic⟩
  if !Scalar.lt tolerance coefficient || Scalar.lt ratio 0 then best?
  else match best? with
    | none => own
    | some best =>
      if Scalar.lt ratio (best.ratio - tolerance)
          || (Scalar.le ratio (best.ratio + tolerance) && r.basic < best.basic) then own
      else best?

/-- The row whose basic variable leaves the basis when column `col` enters it. -/
def leaving? (t : Tableau K) (tolerance : K) (col : Nat) : Option Nat :=
  (t.rows.zipIdx.foldl (fun best? r => ratioStep tolerance col best? r.1 r.2) none).map
    Candidate.row

/-! ### Pivoting -/

/-- Makes `col` the basic variable of a row: the row is divided by its coefficient there, and the column
is eliminated from the other rows and from the objective. -/
def pivot (t : Tableau K) (row col : Nat) : Tableau K :=
  match t.rows[row]? with
  | none => t
  | some r =>
    let pivotRow := r.equation.divide (r.equation.entry col)
    { t with
      rows := t.rows.mapIdx fun i other =>
        if i = row then ⟨col, pivotRow⟩
        else { other with equation := other.equation.eliminate col pivotRow }
      objective := t.objective.eliminate col pivotRow }

/-- A pivot keeps every row. -/
@[simp]
theorem length_rows_pivot (t : Tableau K) (row col : Nat) :
    (t.pivot row col).rows.length = t.rows.length := by
  unfold pivot
  split <;> simp

/-! ### Between the phases -/

/-- The objective of the first phase, minus the sum of the artificial variables, with the artificial
basic variables eliminated. -/
def artificialObjective (t : Tableau K) : Equation K :=
  t.rows.foldl (fun objective r => if t.isArtificial r then objective.add r.equation else objective)
    ⟨List.replicate t.firstArtificial 0 ++ List.replicate t.numArtificial (-1), 0⟩

/-- `objective` with every basic variable eliminated whose cost is not within `tolerance` of zero. -/
def price (t : Tableau K) (tolerance : K) (objective : Equation K) : Equation K :=
  t.rows.foldl
    (fun objective r =>
      let cost := objective.entry r.basic
      if Scalar.lt tolerance (Scalar.abs cost) then objective.subtract cost r.equation
      else objective)
    objective

/-- Whether the artificial variables are zero in the basic solution, give or take `tolerance`. -/
def artificialsVanish (t : Tableau K) (tolerance : K) : Bool :=
  (t.rows.filter t.isArtificial).all fun r => Scalar.le (Scalar.abs r.equation.rhs) tolerance

/-- The first column before the artificial ones in which an equation has a coefficient that is not
within `tolerance` of zero. -/
def replacement? (t : Tableau K) (tolerance : K) (e : Equation K) : Option Nat :=
  (e.coefficients.take t.firstArtificial).findIdx? fun a => Scalar.lt tolerance (Scalar.abs a)

omit [Scalar K] in
/-- The tableau without a row. -/
def drop (t : Tableau K) (row : Nat) : Tableau K :=
  { t with rows := t.rows.eraseIdx row }

end Tableau

end LinearProgram
