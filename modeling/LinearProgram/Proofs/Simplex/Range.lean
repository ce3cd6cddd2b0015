import Mathlib
import LinearProgram.Simplex.Solver
import LinearProgram.Proofs.Simplex.Climb
import LinearProgram.Proofs.Simplex.Start
import LinearProgram.Proofs.Simplex.Table

/-!
# Nothing goes out of range

The starting table of a program whose rows have one width is that of its starting tableau: what the counts of
the two groups reserve is what the rows take (`build?_eq`). From there on both phases pass from the table of a
tableau to the table of the next one, whatever the comparisons of numbers decide, so that the method on tables
has a result, and it is that of the method (`run_grid`, `run_in_range`).
-/

namespace LinearProgram

open Places

variable {K : Type} [Scalar K]

/-! ## The starting table -/

namespace Equation

/-- The equation without coefficients and with right-hand side zero, in `n` columns. -/
def zero (n : ℕ) : Equation K :=
  ⟨List.replicate n 0, 0⟩

theorem line_zero (n : ℕ) : (zero n : Equation K).line = List.replicate (n + 1) 0 :=
  List.replicate_succ'.symm

end Equation

namespace Tableau

theorem fill?_eq {n numSlack numArtificial : ℕ} {q : Placed K} (hq : q.Fits n numSlack numArtificial) :
    Grid.fill? n (n + numSlack + numArtificial + 1) q
        (List.replicate (n + numSlack + numArtificial + 1) 0) =
      some (q.toRow (numSlack + numArtificial)).equation.line := by
  have hwidth := hq.width
  let columns := q.row.coefficients ++ List.replicate (numSlack + numArtificial) (0 : K)
  have hlength : columns.length = n + numSlack + numArtificial := by
    simp [columns, hwidth, Nat.add_assoc]
  have hcopy : overwrite? (List.replicate (n + numSlack + numArtificial + 1) 0) n q.row.coefficients =
      some (columns ++ [0]) := by
    rw [overwrite?_eq (by rw [List.length_replicate]; omega) hwidth, List.drop_replicate, Nat.add_assoc n,
      Nat.add_assoc n, Nat.add_sub_cancel_left, List.replicate_succ', List.append_assoc]
  have hrhs : write? (columns ++ [0]) (n + numSlack + numArtificial) q.row.rhs =
      some (columns ++ [q.row.rhs]) := by
    rw [← hlength, write?_append, List.append_nil]
  -- an entry before the right-hand side
  have hset {xs : List K} {j : ℕ} (hj : j < xs.length) (x : K) :
      write? (xs ++ [q.row.rhs]) j x = some (xs.set j x ++ [q.row.rhs]) := by
    rw [write?_eq (by rw [List.length_append]; omega), List.set_append_left _ _ hj]
  have hslack := hq.slack
  have hartificial := hq.artificial
  unfold hasSlack at hslack
  unfold hasArtificial at hartificial
  unfold Grid.fill? Placed.toRow
  simp only [hcopy, before?_succ, hrhs, Option.bind_eq_bind, Option.bind_some]
  revert hslack hartificial
  cases q.row.relation with
  | le =>
    intro hslack _
    obtain ⟨-, hs⟩ := hslack rfl
    exact hset (by omega) 1
  | ge =>
    intro hslack hartificial
    obtain ⟨-, hs⟩ := hslack rfl
    obtain ⟨-, ha⟩ := hartificial rfl
    simp only [hset (show q.slack < columns.length by omega)]
    exact hset (by rw [List.length_set]; omega) 1
  | eq =>
    intro _ hartificial
    obtain ⟨-, ha⟩ := hartificial rfl
    exact hset (by omega) 1

variable {p : DenseProgram K}

/-- The table when the first `i` rows are filled in. -/
def filled (p : DenseProgram K) (i : ℕ) : Grid K where
  data :=
    ((placed p).take i).map
        (fun q => (q.toRow ((ofProgram p).numSlack + (ofProgram p).numArtificial)).equation.line) ++
      List.replicate ((placed p).length - i + 1) (List.replicate ((ofProgram p).numColumns + 1) 0)
  basics := ((placed p).take i).map Placed.basic ++ List.replicate ((placed p).length - i) 0
  numVariables := (ofProgram p).numVariables
  numSlack := (ofProgram p).numSlack
  numArtificial := (ofProgram p).numArtificial

/-- Filling in one row. -/
theorem place?_filled (hp : p.Rectangular) {i : ℕ} {q : Placed K} (hq : (placed p)[i]? = some q) :
    (filled p i).place? i q = some (filled p (i + 1)) := by
  obtain ⟨hi, hqi⟩ := List.getElem?_eq_some_iff.mp hq
  let line (q : Placed K) := (q.toRow ((ofProgram p).numSlack + (ofProgram p).numArtificial)).equation.line
  let zeros : List K := List.replicate ((ofProgram p).numColumns + 1) 0
  let left := (placed p).length - (i + 1)
  have hleft : (placed p).length - i = left + 1 := by omega
  have hlength {β : Type} (f : Placed K → β) : (((placed p).take i).map f).length = i := by
    rw [List.length_map, List.length_take_of_le hi.le]
  have htake : (placed p).take (i + 1) = (placed p).take i ++ [q] := by
    rw [← List.take_append_getElem hi, hqi]
  -- the table before and after, with the row in question set apart
  have hdata : (filled p i).data =
      ((placed p).take i).map line ++ zeros :: List.replicate (left + 1) zeros := by
    rw [← List.replicate_succ, ← hleft]
    rfl
  have hdata' : (filled p (i + 1)).data =
      ((placed p).take i).map line ++ [line q] ++ List.replicate (left + 1) zeros := by
    rw [← List.map_singleton, ← List.map_append, ← htake]
    rfl
  have hbasics : (filled p i).basics =
      ((placed p).take i).map Placed.basic ++ 0 :: List.replicate left 0 := by
    rw [← List.replicate_succ, ← hleft]
    rfl
  have hbasics' : (filled p (i + 1)).basics =
      ((placed p).take i).map Placed.basic ++ [q.basic] ++ List.replicate left 0 := by
    rw [← List.map_singleton, ← List.map_append, ← htake]
    rfl
  have hread : (filled p i).data[i]? = some zeros := by
    rw [hdata, List.getElem?_append_right (hlength line).le, hlength, Nat.sub_self]
    rfl
  have hfill : Grid.fill? p.numVariables ((ofProgram p).numColumns + 1) q zeros = some (line q) :=
    fill?_eq (fits_of_mem_placed hp (List.mem_of_getElem? hq))
  have hwrite := write?_append (((placed p).take i).map line) (List.replicate (left + 1) zeros) zeros (line q)
  have hwrite' := write?_append (((placed p).take i).map Placed.basic) (List.replicate left 0) 0 q.basic
  rw [hlength, ← hdata, ← hdata'] at hwrite
  rw [hlength, ← hbasics, ← hbasics'] at hwrite'
  rw [Grid.place?]
  refine (congrArg (· >>= _) (modify?_eq hread hfill hwrite)).trans ?_
  exact congrArg (· >>= _) hwrite'

theorem length_placed : (placed p).length = (p.rows.map DenseRow.oriented).length := by
  rw [placed, ← List.length_map Placed.row, map_row_place]

theorem filled_zero : filled p 0 =
    ⟨List.replicate ((p.rows.map DenseRow.oriented).length + 1)
        (List.replicate ((ofProgram p).numColumns + 1) 0),
      List.replicate (p.rows.map DenseRow.oriented).length 0, p.numVariables, (ofProgram p).numSlack,
      (ofProgram p).numArtificial⟩ := by
  rw [← length_placed]
  rfl

/-- Nothing but the objective is missing when all rows are filled in. -/
theorem filled_length : filled p (p.rows.map DenseRow.oriented).length =
    { ofProgram p with objective := .zero (ofProgram p).numColumns }.grid := by
  have hbasic : BasicRow.basic ∘ Placed.toRow ((ofProgram p).numSlack + (ofProgram p).numArtificial) =
      Placed.basic (K := K) := funext fun q => q.basic_toRow _
  rw [← length_placed]
  simp only [filled, grid, rows_ofProgram, List.take_length, Nat.sub_self, List.map_map, hbasic,
    Equation.line_zero, List.replicate_zero, List.append_nil]
  rfl

/-- The objective written over zeros. -/
theorem store?_startingCosts (hp : p.Rectangular) :
    store? (Equation.zero (ofProgram p).numColumns).line (startingCosts p) =
      some (ofProgram p).objective.line := by
  have hleft : (ofProgram p).numColumns + 1 - (startingCosts p).length =
      (ofProgram p).numSlack + (ofProgram p).numArtificial + 1 := by
    rw [length_startingCosts hp]
    show p.numVariables + (ofProgram p).numSlack + (ofProgram p).numArtificial + 1 - p.numVariables = _
    omega
  rw [Equation.line_zero, store?_eq (by rw [List.length_replicate]; omega), List.drop_replicate, hleft,
    List.replicate_succ', ← List.append_assoc]
  rfl

omit [Scalar K] in
theorem advance_eq (r : DenseRow K) (slack artificial : ℕ) : Grid.advance r slack artificial =
    (slack + if hasSlack r then 1 else 0, artificial + if hasArtificial r then 1 else 0) := by
  unfold Grid.advance
  cases hr : r.relation <;> simp [hasSlack, hasArtificial, hr]

omit [Scalar K] in
/-- A row takes the columns that those before it have left. -/
theorem getElem?_place (rs : List (DenseRow K)) (slack artificial i : ℕ) :
    (place rs slack artificial)[i]? = rs[i]?.map fun r =>
      ⟨r, slack + (rs.take i).countP hasSlack, artificial + (rs.take i).countP hasArtificial⟩ := by
  induction rs generalizing slack artificial i with
  | nil => rfl
  | cons r rs ih =>
    cases i with
    | zero => rfl
    | succ i =>
      rw [place, List.getElem?_cons_succ, List.getElem?_cons_succ, ih, List.take_succ_cons, List.countP_cons,
        List.countP_cons, Nat.add_assoc, Nat.add_assoc, Nat.add_comm (if hasSlack r then 1 else 0),
        Nat.add_comm (if hasArtificial r then 1 else 0)]

/-- The next free columns of the two groups when `i` rows are filled in. -/
def free (p : DenseProgram K) (i : ℕ) : ℕ × ℕ :=
  (p.numVariables + ((p.rows.map DenseRow.oriented).take i).countP hasSlack,
    p.numVariables + (ofProgram p).numSlack + ((p.rows.map DenseRow.oriented).take i).countP hasArtificial)

theorem placeNext?_filled (hp : p.Rectangular) {i : ℕ} (hi : i < (p.rows.map DenseRow.oriented).length) :
    Grid.placeNext? (p.rows.map DenseRow.oriented) (filled p i, free p i) i =
      some (filled p (i + 1), free p (i + 1)) := by
  have hr := List.getElem?_eq_getElem hi
  have hq : (placed p)[i]? =
      some ⟨(p.rows.map DenseRow.oriented)[i], (free p i).1, (free p i).2⟩ := by
    rw [placed, getElem?_place, hr]
    rfl
  have hfree : Grid.advance (p.rows.map DenseRow.oriented)[i] (free p i).1 (free p i).2 =
      free p (i + 1) := by
    rw [advance_eq, free, free, ← List.take_append_getElem hi]
    simp only [List.countP_append, List.countP_singleton, Nat.add_assoc]
  simp only [Grid.placeNext?, hr, Option.bind_eq_bind, Option.bind_some, place?_filled hp hq, hfree]
  rfl

theorem build?_eq (hp : p.Rectangular) : Grid.build? p = some (ofProgram p).grid := by
  obtain ⟨_, hloop, rfl⟩ := foldlM_range (n := (p.rows.map DenseRow.oriented).length)
    (f := Grid.placeNext? (p.rows.map DenseRow.oriented)) (fun i state => state = (filled p i, free p i))
    (x := (filled p 0, free p 0)) rfl fun i hi state hstate => by
      subst hstate
      exact ⟨_, placeNext?_filled hp hi, rfl⟩
  have hrows : (ofProgram p).rows.length = (p.rows.map DenseRow.oriented).length := length_layOut ..
  have hmodify := modify?_grid (t := { ofProgram p with objective := .zero (ofProgram p).numColumns })
    (f := fun row => store? row (startingCosts p)) (store?_startingCosts hp)
  rw [filled_zero, filled_length] at hloop
  rw [hrows] at hmodify
  refine (congrArg (· >>= _) hloop).trans ?_
  exact hmodify

end Tableau

namespace Simplex

open Tableau

variable {eligible : ℕ} {t : Tableau K}

/-! ## One phase -/

theorem isDegenerate_of_getElem? (tolerance : K) {row : ℕ} {r : BasicRow K} (hr : t.rows[row]? = some r) :
    isDegenerate tolerance t row = Scalar.le (Scalar.abs r.equation.rhs) tolerance := by
  rw [isDegenerate, hr]
  rfl

theorem climb_grid (ht : t.Shaped) (tolerance : K) (heligible : eligible ≤ t.numColumns)
    (expired : ℕ → Bool) (left made : ℕ) (lowestIndex : Bool) :
    let c := climb tolerance eligible expired left made lowestIndex t
    Grid.climb Grid.Regular tolerance eligible expired left made lowestIndex t.grid =
      some (c.ending, c.tableau.grid, c.steps) := by
  induction left generalizing made lowestIndex t with
  | zero =>
    rw [Grid.climb, ht.entering?_grid tolerance heligible]
    cases hcol : t.entering? tolerance eligible lowestIndex with
    | none =>
      rw [climb_converged hcol]
      rfl
    | some col =>
      rw [climb_pivotLimit hcol]
      rfl
  | succ left ih =>
    rw [Grid.climb, ht.entering?_grid tolerance heligible]
    cases hcol : t.entering? tolerance eligible lowestIndex with
    | none =>
      rw [climb_converged hcol]
      rfl
    | some col =>
      cases hexp : expired made with
      | true =>
        rw [climb_timeLimit hcol hexp]
        rfl
      | false =>
        have hlt := (lt_of_entering? hcol).trans_le heligible
        obtain ⟨hleaving, hrows⟩ := ht.leaving?_grid tolerance hlt
        simp only [Option.bind_eq_bind, Option.bind_some, hleaving, Bool.false_eq_true, if_false]
        cases hrow : t.leaving? tolerance col with
        | none =>
          rw [climb_unbounded hcol hexp hrow]
          rfl
        | some row =>
          obtain ⟨r, hr⟩ : ∃ r, t.rows[row]? = some r := ⟨_, List.getElem?_eq_getElem (hrows row hrow)⟩
          have hnext : (t.pivot row col).Shaped := ht.pivot hlt
          have hrest := ih hnext (by rwa [numColumns_pivot]) (made + 1) (isDegenerate tolerance t row)
          rw [climb_pivot hcol hexp hrow]
          rw [isDegenerate_of_getElem? tolerance hr] at hrest ⊢
          simp only [ht.rhsColumn?_grid, ht.entry?_grid_rhs hr, ht.pivot?_grid hr hlt, hnext.pass?_grid,
            Option.bind_some, hrest]
          rfl

/-- A phase keeps the shape and the number of the rows and of the columns. -/
theorem climb_keeps (ht : t.Shaped) (tolerance : K) (heligible : eligible ≤ t.numColumns)
    (expired : ℕ → Bool) (left made : ℕ) (lowestIndex : Bool) :
    let c := climb tolerance eligible expired left made lowestIndex t
    c.tableau.Shaped ∧ c.tableau.numColumns = t.numColumns ∧ c.tableau.rows.length = t.rows.length := by
  refine climb_induction (P := fun t' => t'.Shaped ∧ t'.numColumns = t.numColumns ∧
    t'.rows.length = t.rows.length) ?_ expired left made lowestIndex ⟨ht, rfl, rfl⟩
  rintro t' _ col row ⟨ht', hcolumns, hrows⟩ hcol _
  exact ⟨ht'.pivot ((lt_of_entering? hcol).trans_le (hcolumns.symm ▸ heligible)),
    numColumns_pivot.trans hcolumns, (length_rows_pivot ..).trans hrows⟩

/-! ## Between the phases

The walk goes down from the number of rows at its start. The rows behind a dropped one have been looked at, so
that the rows still to come keep their places. -/

theorem expel_grid (ht : t.Shaped) (tolerance : K) {count : ℕ} (hcount : count ≤ t.rows.length) :
    Grid.expel Grid.Regular tolerance count t.grid =
        some ((expelArtificials tolerance count t).1.grid, (expelArtificials tolerance count t).2) ∧
      (expelArtificials tolerance count t).1.Shaped := by
  induction count generalizing t with
  | zero => exact ⟨rfl, ht⟩
  | succ row ih =>
    obtain ⟨r, hr⟩ : ∃ r, t.rows[row]? = some r := ⟨_, List.getElem?_eq_getElem hcount⟩
    rw [Grid.expel, getElem?_basics_grid hr, expelArtificials]
    simp only [hr, Option.bind_eq_bind, Option.bind_some]
    by_cases ha : t.firstArtificial ≤ r.basic
    · obtain ⟨hreplacement, hcolumns⟩ := ht.replacement?_grid hr tolerance
      have ha' : t.isArtificial r = true := decide_eq_true ha
      rw [if_neg (show ¬r.basic < t.grid.firstArtificial from not_lt.mpr ha)]
      simp only [hreplacement, ha', Option.bind_some]
      cases hcol : t.replacement? tolerance r.equation with
      | some col =>
        have hnext : (t.pivot row col).Shaped := ht.pivot (hcolumns col hcol)
        obtain ⟨hrest, hfinal⟩ := ih hnext (by rw [length_rows_pivot]; omega)
        simp only [ht.pivot?_grid hr (hcolumns col hcol), hnext.pass?_grid, hrest, Option.bind_some]
        exact ⟨rfl, hfinal⟩
      | none =>
        have hnext := ht.drop row
        have hlength : (t.drop row).rows.length = t.rows.length - 1 := List.length_eraseIdx_of_lt hcount
        obtain ⟨hrest, hfinal⟩ := ih hnext (by omega)
        simp only [drop?_grid hcount, hnext.pass?_grid, hrest, Option.bind_some]
        exact ⟨rfl, hfinal⟩
    · have ha' : t.isArtificial r = false := decide_eq_false ha
      rw [if_pos (show r.basic < t.grid.firstArtificial from not_le.mp ha)]
      simp only [ha']
      exact ih ht (Nat.le_of_succ_le hcount)

/-! ## Both phases -/

/-- The first phase on the table ends like the first phase, and with the program's objective where it ends
optimal. -/
theorem firstPhase_grid (ht : t.Shaped) (s : Settings K) (deadline : Deadline) :
    let c := firstPhase s deadline t
    ∃ last, Grid.firstPhase Grid.Regular s deadline t.grid = some (c.ending, last, c.steps) ∧
      (c.ending = .optimal →
        last = { c.tableau with objective := c.tableau.price s.tolerance t.objective }.grid ∧
          { c.tableau with objective := c.tableau.price s.tolerance t.objective }.Shaped) := by
  intro c
  obtain ⟨hobjective, hlength⟩ := ht.artificialObjective?_grid
  have hstart := ht.withObjective hlength
  have hclimb : Grid.climb Grid.Regular s.tolerance t.numColumns (deadline .first) s.maxPivots 0 false
      { t with objective := t.artificialObjective }.grid = some (c.ending, c.tableau.grid, c.steps) :=
    climb_grid hstart s.tolerance le_rfl (deadline .first) s.maxPivots 0 false
  obtain ⟨hlast, hcolumns, hrows⟩ : c.tableau.Shaped ∧ c.tableau.numColumns = t.numColumns ∧
      c.tableau.rows.length = t.rows.length :=
    climb_keeps hstart s.tolerance le_rfl (deadline .first) s.maxPivots 0 false
  rw [Grid.firstPhase, objectiveRow?_grid, ht.width?_grid]
  simp only [Option.bind_eq_bind, Option.bind_some, getElem?_data_grid_objective, hobjective,
    hstart.pass?_grid, before?_succ]
  rw [hclimb, Option.bind_some]
  cases hending : c.ending with
  | optimal =>
    have hwidth : t.objective.coefficients.length = c.tableau.numColumns :=
      ht.width_objective.trans hcolumns.symm
    obtain ⟨hrestore, hlength⟩ := hlast.restore?_grid s.tolerance hwidth
    rw [hrows, hcolumns] at hrestore
    simp only [hrestore, Option.bind_some, (hlast.withObjective hlength).pass?_grid]
    exact ⟨_, rfl, fun _ => ⟨rfl, hlast.withObjective hlength⟩⟩
  | unbounded => exact ⟨_, rfl, fun h => nomatch h⟩
  | timeLimit => exact ⟨_, rfl, fun h => nomatch h⟩
  | pivotLimit => exact ⟨_, rfl, fun h => nomatch h⟩

theorem secondPhase_grid (ht : t.Shaped) (s : Settings K) (deadline : Deadline) :
    Grid.secondPhase Grid.Regular s deadline t.grid = some (secondPhase s deadline t) := by
  have heligible : t.firstArtificial ≤ t.numColumns := Nat.le_add_right _ _
  have hclimb : Grid.climb Grid.Regular s.tolerance t.grid.firstArtificial (deadline .second) s.maxPivots 0
      false t.grid = _ := climb_grid ht s.tolerance heligible (deadline .second) s.maxPivots 0 false
  obtain ⟨hlast, -, -⟩ := climb_keeps ht s.tolerance heligible (deadline .second) s.maxPivots 0 false
  rw [Grid.secondPhase, hclimb, secondPhase_eq]
  generalize climb s.tolerance t.firstArtificial (deadline .second) s.maxPivots 0 false t = c at hlast
  simp only [Option.bind_eq_bind, Option.bind_some, hlast.point?_grid]
  cases c.ending <;> rfl

/-- The run on the table of a program whose rows have one width. -/
theorem run_grid {p : DenseProgram K} (hp : p.Rectangular) (s : Settings K) (deadline : Deadline) :
    Grid.run Grid.Regular s deadline p = some (run s deadline p) := by
  have hstart := shaped_ofProgram hp
  rw [Grid.run, build?_eq hp, run_eq]
  simp only [Option.bind_eq_bind, Option.bind_some, hstart.pass?_grid]
  by_cases hnone : (ofProgram p).numArtificial = 0
  · rw [if_pos hnone, if_pos (show (ofProgram p).grid.numArtificial = 0 from hnone),
      secondPhase_grid hstart]
  · rw [if_neg hnone, if_neg (show ¬(ofProgram p).grid.numArtificial = 0 from hnone)]
    obtain ⟨last, hfirst, hlast⟩ := firstPhase_grid hstart s deadline
    rw [hfirst, Option.bind_some]
    cases hending : (firstPhase s deadline (ofProgram p)).ending with
    | optimal =>
      obtain ⟨rfl, hshaped⟩ := hlast hending
      simp only [hshaped.artificialsVanish?_grid, objectiveRow?_grid, Option.bind_some]
      by_cases hvanish : (firstPhase s deadline (ofProgram p)).tableau.artificialsVanish s.tolerance = true
      · obtain ⟨hexpel, hready⟩ := expel_grid hshaped s.tolerance le_rfl
        rw [if_pos hvanish]
        refine (if_pos hvanish).trans ?_
        refine (congrArg (Option.bind · _) hexpel).trans ?_
        exact congrArg (Option.bind · _) (secondPhase_grid hready s deadline)
      · rw [if_neg hvanish]
        exact if_neg hvanish
    | unbounded => rfl
    | timeLimit => rfl
    | pivotLimit => rfl

/-- **Nothing goes out of range.** Whatever the model, the arithmetic, the settings, the clock and the limits,
the run on the table has a result: every position that is read, written, removed or copied to exists, no
subtraction goes below zero, and the table is regular after every operation. The result is that of the run. -/
theorem run_in_range (m : Model K) (s : Settings K) (clock : Clock K) (limits : Limits K) :
    Grid.run Grid.Regular s (Simplex.deadline clock limits) m.dense = some (runOn s clock m limits) :=
  run_grid m.rectangular_dense s (Simplex.deadline clock limits)

/-- A row that is too short is noticed when it is copied. -/
example : (Grid.run Grid.Regular .shipped .never
    (⟨["x", "y"], [1, 1], .maximize, [⟨"short", [1], .le, 4⟩]⟩ : DenseProgram ℚ)).isNone = true := by
  decide +kernel

/-- Every table is put to the test: here one has a row less than the first. -/
example : (Grid.run (fun g => g.data.length = 3) .shipped .never
    (⟨["x"], [1], .maximize, [⟨"once", [1], .eq, 4⟩, ⟨"twice", [2], .eq, 8⟩]⟩ : DenseProgram ℚ)).isNone =
      true := by
  decide +kernel

end Simplex

end LinearProgram
