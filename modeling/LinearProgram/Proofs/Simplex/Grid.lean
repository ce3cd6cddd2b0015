import Mathlib
import LinearProgram.Simplex.Method
import LinearProgram.Proofs.Simplex.Layout
import LinearProgram.Proofs.Simplex.Places

/-!
# The method on one table

A tableau as one table of numbers: the rows of the constraints, then the row of the objective, with the
right-hand sides in the last column, and a list of the basic variables beside it. The position of the
objective's row and that of the last column are computed from lengths whenever they are needed.

The method is written out on such tables with every access guarded: a row, a column or a basic variable is
read and written by its position, rows are copied, divided and combined place by place, and where a position
does not exist, a copied row has another length or a subtraction goes below zero, there is no result. The
table is also put to a test after every operation, and a table that fails it ends the run without a result.
-/

namespace LinearProgram

open Places Simplex
open Tableau (hasSlack hasArtificial startingCosts Placed)

/-- A tableau as a table of numbers. -/
structure Grid (K : Type) where
  data : List (List K)
  basics : List ℕ
  numVariables : ℕ
  numSlack : ℕ
  numArtificial : ℕ

namespace Grid

variable {K : Type}

/-- The table has one column for every variable of the three groups and one for the right-hand sides, one
row for every basic variable and one for the objective, and no basic variable beyond the three groups. -/
structure Regular (g : Grid K) : Prop where
  width : ∀ row ∈ g.data, row.length = g.numVariables + g.numSlack + g.numArtificial + 1
  height : g.data.length = g.basics.length + 1
  basics : ∀ b ∈ g.basics, b < g.numVariables + g.numSlack + g.numArtificial

instance : DecidablePred (Regular (K := K)) := fun g =>
  decidable_of_iff
    ((∀ row ∈ g.data, row.length = g.numVariables + g.numSlack + g.numArtificial + 1) ∧
      g.data.length = g.basics.length + 1 ∧
      ∀ b ∈ g.basics, b < g.numVariables + g.numSlack + g.numArtificial)
    ⟨fun h => ⟨h.1, h.2.1, h.2.2⟩, fun h => ⟨h.width, h.height, h.basics⟩⟩

/-! ## Places of a table -/

/-- The first artificial column. -/
def firstArtificial (g : Grid K) : ℕ :=
  g.numVariables + g.numSlack

/-- The position of the objective's row, the last one. -/
def objectiveRow? (g : Grid K) : Option ℕ :=
  before? g.data.length

/-- The number of columns, that of the first row. -/
def width? (g : Grid K) : Option ℕ :=
  g.data[0]?.map List.length

/-- The position of the right-hand sides, the last column. -/
def rhsColumn? (g : Grid K) : Option ℕ := do
  before? (← g.width?)

/-- The number in a row and a column. -/
def entry? (g : Grid K) (i j : ℕ) : Option K := do
  (← g.data[i]?)[j]?

/-- The table with another row in the place of row `i`, made from it. -/
def modify? (g : Grid K) (i : ℕ) (f : List K → Option (List K)) : Option (Grid K) := do
  let row ← f (← g.data[i]?)
  return { g with data := ← write? g.data i row }

/-- Row `k` combined with row `i`, column by column. -/
def combine? (g : Grid K) (f : K → K → K) (columns k i : ℕ) : Option (Grid K) := do
  let other ← g.data[i]?
  g.modify? k fun row => Places.combine? f columns row other

variable [Scalar K]

/-! ## The starting table -/

/-- A row of zeros filled in for a constraint: its coefficients, its right-hand side in the last column, and
the entries in its own columns. -/
def fill? (numVariables width : ℕ) (q : Placed K) (zeros : List K) : Option (List K) := do
  let row ← overwrite? zeros numVariables q.row.coefficients
  let row ← write? row (← before? width) q.row.rhs
  match q.row.relation with
  | .le => write? row q.slack 1
  | .ge => write? (← write? row q.slack (-1)) q.artificial 1
  | .eq => write? row q.artificial 1

/-- Row `i` filled in for a constraint, and its basic variable noted. -/
def place? (g : Grid K) (i : ℕ) (q : Placed K) : Option (Grid K) := do
  let g ← g.modify? i (fill? g.numVariables (g.numVariables + g.numSlack + g.numArtificial + 1) q)
  return { g with basics := ← write? g.basics i q.basic }

omit [Scalar K] in
/-- The next free columns of the two groups after a row. -/
def advance (r : DenseRow K) (slack artificial : ℕ) : ℕ × ℕ :=
  match r.relation with
  | .le => (slack + 1, artificial)
  | .ge => (slack + 1, artificial + 1)
  | .eq => (slack, artificial + 1)

/-- Row `i` filled in with the next free columns. -/
def placeNext? (rows : List (DenseRow K)) (state : Grid K × ℕ × ℕ) (i : ℕ) : Option (Grid K × ℕ × ℕ) := do
  let (g, slack, artificial) := state
  let r ← rows[i]?
  return (← g.place? i ⟨r, slack, artificial⟩, advance r slack artificial)

/-- The starting table of a program, filled in from zeros. The columns of the two groups are counted first, and
handed out row by row from two running positions afterwards. -/
def build? (p : DenseProgram K) : Option (Grid K) := do
  let rows := p.rows.map DenseRow.oriented
  let numSlack := rows.countP hasSlack
  let numArtificial := rows.countP hasArtificial
  let width := p.numVariables + numSlack + numArtificial + 1
  let zeros : Grid K :=
    ⟨List.replicate (rows.length + 1) (List.replicate width 0), List.replicate rows.length 0,
      p.numVariables, numSlack, numArtificial⟩
  let (filled, _) ← (List.range rows.length).foldlM (placeNext? rows)
    (zeros, p.numVariables, p.numVariables + numSlack)
  filled.modify? rows.length fun row => store? row (startingCosts p)

/-! ## Choosing a pivot -/

/-- Whether the cost in column `j` of row `k` is above `tolerance`. -/
def improves? (g : Grid K) (tolerance : K) (k j : ℕ) : Option Bool := do
  return Scalar.lt tolerance (← g.entry? k j)

/-- One column of the search for the largest cost in row `k`, with the largest cost so far and its column. -/
def costStep? (g : Grid K) (k : ℕ) (best : K × Option ℕ) (j : ℕ) : Option (K × Option ℕ) := do
  let cost ← g.entry? k j
  return if Scalar.lt best.1 cost then (cost, some j) else best

/-- The column that enters the basis, among the first `eligible`. -/
def entering? (g : Grid K) (tolerance : K) (eligible : ℕ) (lowestIndex : Bool) : Option (Option ℕ) := do
  let k ← g.objectiveRow?
  if lowestIndex then (List.range eligible).findM? (g.improves? tolerance k)
  else
    let best ← (List.range eligible).foldlM (g.costStep? k) (tolerance, none)
    return best.2

/-- One row of the ratio test, with the least ratio so far and its row. On a tie the basic variables of both
rows are looked up. -/
def ratioStep? (g : Grid K) (tolerance : K) (rhsColumn col : ℕ) (best? : Option (K × ℕ)) (i : ℕ) :
    Option (Option (K × ℕ)) := do
  let coefficient ← g.entry? i col
  let ratio := (← g.entry? i rhsColumn) / coefficient
  if !Scalar.lt tolerance coefficient || Scalar.lt ratio 0 then return best?
  else match best? with
    | none => return some (ratio, i)
    | some (least, current) =>
      let basic ← g.basics[i]?
      let other ← g.basics[current]?
      if Scalar.lt ratio (least - tolerance) || (Scalar.le ratio (least + tolerance) && basic < other) then
        return some (ratio, i)
      else return best?

/-- The row whose basic variable leaves the basis when column `col` enters it. -/
def leaving? (g : Grid K) (tolerance : K) (col : ℕ) : Option (Option ℕ) := do
  let rhsColumn ← g.rhsColumn?
  let best? ← (List.range (← g.objectiveRow?)).foldlM (g.ratioStep? tolerance rhsColumn col) none
  return best?.map Prod.snd

/-! ## Pivoting -/

/-- A row freed of column `col` by means of another one. -/
def eliminate? (col : ℕ) (pivotRow row : List K) : Option (List K) := do
  let factor ← row[col]?
  return if Scalar.eq factor 0 then row else List.zipWith (fun a b => a - factor * b) row pivotRow

/-- Makes `col` the basic variable of a row. -/
def pivot? (g : Grid K) (row col : ℕ) : Option (Grid K) := do
  let basics ← write? g.basics row col
  let chosen ← g.data[row]?
  let coefficient ← chosen[col]?
  let pivotRow := chosen.map (· / coefficient)
  let divided ← write? g.data row pivotRow
  let data ← divided.zipIdx.mapM fun other =>
    if other.2 = row then some other.1 else eliminate? col pivotRow other.1
  return { g with data, basics }

/-! ## Between the phases -/

/-- Row `i` added to row `k` if its basic variable is artificial. -/
def addArtificial? (k columns : ℕ) (g : Grid K) (i : ℕ) : Option (Grid K) := do
  if g.firstArtificial ≤ (← g.basics[i]?) then g.combine? (· + ·) columns k i else return g

/-- The table with the objective of the first phase in row `k`: zeros, minus one in the artificial columns,
and then every row added whose basic variable is artificial. -/
def artificialObjective? (g : Grid K) (k columns : ℕ) : Option (Grid K) := do
  let costs ← (List.range g.numArtificial).foldlM (fun row j => write? row (g.firstArtificial + j) (-1))
    (List.replicate columns 0)
  let g ← g.modify? k fun _ => some costs
  (List.range k).foldlM (addArtificial? k columns) g

/-- The basic variable of row `i` eliminated from row `k` if its cost is not within `tolerance` of zero. -/
def clear? (tolerance : K) (k columns : ℕ) (g : Grid K) (i : ℕ) : Option (Grid K) := do
  let cost ← g.entry? k (← g.basics[i]?)
  if Scalar.lt tolerance (Scalar.abs cost) then g.combine? (fun a b => a - cost * b) columns k i
  else return g

/-- The table with an objective put back into row `k` and the basic variables eliminated from it. -/
def restore? (g : Grid K) (tolerance : K) (k columns : ℕ) (objective : List K) : Option (Grid K) := do
  let g ← g.modify? k fun _ => some objective
  (List.range k).foldlM (clear? tolerance k columns) g

/-- Whether the basic variable of row `i` is zero, give or take `tolerance`, or not artificial. -/
def vanishes? (g : Grid K) (tolerance : K) (rhsColumn i : ℕ) : Option Bool := do
  if g.firstArtificial ≤ (← g.basics[i]?) then
    return Scalar.le (Scalar.abs (← g.entry? i rhsColumn)) tolerance
  else return true

/-- Whether the artificial basic variables are zero, give or take `tolerance`. -/
def artificialsVanish? (g : Grid K) (tolerance : K) : Option Bool := do
  let rhsColumn ← g.rhsColumn?
  (List.range (← g.objectiveRow?)).allM (g.vanishes? tolerance rhsColumn)

/-- Whether the entry in column `j` of row `i` is not within `tolerance` of zero. -/
def replaces? (g : Grid K) (tolerance : K) (i j : ℕ) : Option Bool := do
  return Scalar.lt tolerance (Scalar.abs (← g.entry? i j))

/-- The first column before the artificial ones in which a row has an entry that is not within `tolerance`
of zero. -/
def replacement? (g : Grid K) (tolerance : K) (i : ℕ) : Option (Option ℕ) :=
  (List.range g.firstArtificial).findM? (g.replaces? tolerance i)

omit [Scalar K] in
/-- The table without a row and its basic variable. -/
def drop? (g : Grid K) (row : ℕ) : Option (Grid K) := do
  return { g with data := ← remove? g.data row, basics := ← remove? g.basics row }

omit [Scalar K] in
/-- The right-hand side of row `i` as the value of its basic variable, if that is one of the program's. -/
def assign? (g : Grid K) (rhsColumn : ℕ) (values : List K) (i : ℕ) : Option (List K) := do
  let basic ← g.basics[i]?
  if basic < g.numVariables then write? values basic (← g.entry? i rhsColumn) else return values

/-- The values of the program's variables. -/
def point? (g : Grid K) : Option (List K) := do
  let rhsColumn ← g.rhsColumn?
  (List.range g.basics.length).foldlM (g.assign? rhsColumn) (List.replicate g.numVariables 0)

/-! ## The phases

`P` is the test that every table has to pass. -/

variable (P : Grid K → Prop) [DecidablePred P]

omit [Scalar K] in
/-- The table, if it passes the test. -/
def pass? (g : Grid K) : Option (Grid K) :=
  if P g then some g else none

/-- Pivots until none of the first `eligible` columns improves the objective. -/
def climb (tolerance : K) (eligible : ℕ) (expired : ℕ → Bool) :
    (left made : ℕ) → (lowestIndex : Bool) → Grid K → Option (Ending × Grid K × List Step)
  | left, made, lowestIndex, g => do
    match ← g.entering? tolerance eligible lowestIndex with
    | none => return (.optimal, g, [.converged made])
    | some col =>
      match left with
      | 0 => return (.pivotLimit, g, [])
      | left + 1 =>
        if expired made then return (.timeLimit, g, [.deadline made])
        else match ← g.leaving? tolerance col with
          | none => return (.unbounded, g, [])
          | some row =>
            let rhs ← g.entry? row (← g.rhsColumn?)
            let degenerate := Scalar.le (Scalar.abs rhs) tolerance
            let next ← pass? P (← g.pivot? row col)
            let (ending, final, steps) ← climb tolerance eligible expired left (made + 1) degenerate next
            return (ending, final, .pivot row col degenerate :: steps)

/-- Removes the artificial variables from the basis, among the first `count` rows from the last one to the
first. -/
def expel (tolerance : K) : (count : ℕ) → Grid K → Option (Grid K × List Step)
  | 0, g => some (g, [])
  | row + 1, g => do
    if (← g.basics[row]?) < g.firstArtificial then expel tolerance row g
    else match ← g.replacement? tolerance row with
      | some col =>
        let next ← pass? P (← g.pivot? row col)
        let (final, steps) ← expel tolerance row next
        return (final, .expel row col :: steps)
      | none =>
        let next ← pass? P (← g.drop? row)
        let (final, steps) ← expel tolerance row next
        return (final, .dropRedundant row :: steps)

/-- The first phase, which ends with the program's objective back in its row where it ends optimal. -/
def firstPhase (s : Settings K) (deadline : Deadline) (g : Grid K) :
    Option (Ending × Grid K × List Step) := do
  let k ← g.objectiveRow?
  let columns ← g.width?
  let objective ← g.data[k]?
  let start ← pass? P (← g.artificialObjective? k columns)
  let (ending, last, steps) ←
    climb P s.tolerance (← before? columns) (deadline .first) s.maxPivots 0 false start
  match ending with
  | .optimal => return (.optimal, ← pass? P (← last.restore? s.tolerance k columns objective), steps)
  | _ => return (ending, last, steps)

/-- The second phase. -/
def secondPhase (s : Settings K) (deadline : Deadline) (g : Grid K) : Option (Run K) := do
  let (ending, last, steps) ←
    climb P s.tolerance g.firstArtificial (deadline .second) s.maxPivots 0 false g
  match ending with
  | .optimal => return ⟨.optimal (← last.point?), steps⟩
  | .unbounded => return ⟨.unbounded, steps⟩
  | .timeLimit => return ⟨.timeLimit (some (← last.point?)), steps⟩
  | .pivotLimit => return ⟨.pivotLimit, steps⟩

/-- Both phases. -/
def run (s : Settings K) (deadline : Deadline) (p : DenseProgram K) : Option (Run K) := do
  let start ← pass? P (← build? p)
  if start.numArtificial = 0 then secondPhase P s deadline start
  else
    let (ending, first, steps) ← firstPhase P s deadline start
    match ending with
    | .unbounded => return ⟨.infeasible, steps⟩
    | .timeLimit => return ⟨.timeLimit none, steps⟩
    | .pivotLimit => return ⟨.pivotLimit, steps⟩
    | .optimal =>
      if ← first.artificialsVanish? s.tolerance then
        let (ready, expelled) ← expel P s.tolerance (← first.objectiveRow?) first
        let second ← secondPhase P s deadline ready
        return ⟨second.verdict, steps ++ expelled ++ second.steps⟩
      else return ⟨.infeasible, steps⟩

end Grid

end LinearProgram
