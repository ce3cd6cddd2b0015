import Mathlib
import LinearProgram.Proofs.Simplex.Canonical
import LinearProgram.Proofs.Simplex.Grid

/-!
# Tableaux as tables

A tableau whose equations have one coefficient for each column, and whose basic variables are columns, is a
regular table (`Shaped.regular_grid`). Every operation on that table has a result, and the result is the table
of what the operation makes of the tableau. Nothing here depends on the arithmetic.
-/

namespace LinearProgram

open Places

variable {K : Type}

/-! ## Equations as rows of numbers -/

namespace Equation

/-- The coefficients and then the right-hand side. -/
def line (e : Equation K) : List K :=
  e.coefficients ++ [e.rhs]

variable {e f : Equation K}

@[simp]
theorem length_line (e : Equation K) : e.line.length = e.coefficients.length + 1 := by
  simp [line]

theorem getElem?_line_rhs (e : Equation K) : e.line[e.coefficients.length]? = some e.rhs := by
  simp [line]

theorem map_line (g : K → K) (e : Equation K) : e.line.map g = line ⟨e.coefficients.map g, g e.rhs⟩ := by
  simp [line]

theorem zipWith_line (g : K → K → K) (h : f.coefficients.length = e.coefficients.length) :
    List.zipWith g e.line f.line = line ⟨List.zipWith g e.coefficients f.coefficients, g e.rhs f.rhs⟩ := by
  simp [line, List.zipWith_append h.symm]

variable [Scalar K]

theorem getElem?_line {j : ℕ} (hj : j < e.coefficients.length) : e.line[j]? = some (e.entry j) := by
  rw [line, List.getElem?_append_left hj, List.getElem?_eq_getElem hj, entry, List.getD_eq_getElem]

/-- The entries of an equation among its first coefficients. -/
theorem entry_of_getElem?_take {n j : ℕ} {a : K} (ha : (e.coefficients.take n)[j]? = some a) :
    j < n ∧ e.entry j = a := by
  have hj : j < n := (List.getElem?_eq_some_iff.mp ha).1.trans_le (List.length_take_le ..)
  rw [List.getElem?_take_of_lt hj] at ha
  rw [entry, List.getD_eq_getElem?_getD, ha]
  exact ⟨hj, rfl⟩

theorem eliminate?_line {j : ℕ} (hj : j < e.coefficients.length)
    (h : f.coefficients.length = e.coefficients.length) :
    Grid.eliminate? j f.line e.line = some (e.eliminate j f).line := by
  rw [Grid.eliminate?, getElem?_line hj, eliminate]
  refine congrArg some ?_
  split
  · rfl
  · exact zipWith_line _ h

end Equation

namespace Tableau

/-! ## The places of the table -/

/-- The tableau as one table. -/
def grid (t : Tableau K) : Grid K where
  data := t.rows.map (fun r => r.equation.line) ++ [t.objective.line]
  basics := t.rows.map BasicRow.basic
  numVariables := t.numVariables
  numSlack := t.numSlack
  numArtificial := t.numArtificial

section Places

variable {t : Tableau K} {i : ℕ} {r : BasicRow K}

theorem length_data_grid (t : Tableau K) : t.grid.data.length = t.rows.length + 1 := by
  simp [grid]

theorem length_basics_grid (t : Tableau K) : t.grid.basics.length = t.rows.length :=
  List.length_map _

theorem objectiveRow?_grid (t : Tableau K) : t.grid.objectiveRow? = some t.rows.length := by
  rw [Grid.objectiveRow?, length_data_grid]
  rfl

theorem getElem?_data_grid (hr : t.rows[i]? = some r) : t.grid.data[i]? = some r.equation.line := by
  have hi := (List.getElem?_eq_some_iff.mp hr).1
  rw [grid, List.getElem?_append_left (by rwa [List.length_map]), List.getElem?_map, hr]
  rfl

theorem getElem?_data_grid_objective (t : Tableau K) :
    t.grid.data[t.rows.length]? = some t.objective.line := by
  simp [grid]

theorem getElem?_basics_grid (hr : t.rows[i]? = some r) : t.grid.basics[i]? = some r.basic := by
  simp [grid, hr]

/-- A row of the table is that of a constraint or that of the objective. -/
theorem line_of_getElem?_data {row : List K} (h : t.grid.data[i]? = some row) :
    (∃ r, t.rows[i]? = some r ∧ row = r.equation.line) ∨ (i = t.rows.length ∧ row = t.objective.line) := by
  have hi : i < t.grid.data.length := (List.getElem?_eq_some_iff.mp h).1
  rw [length_data_grid, Nat.lt_succ_iff_lt_or_eq] at hi
  rcases hi with hi | rfl
  · have hr := List.getElem?_eq_getElem hi
    exact .inl ⟨_, hr, Option.some.inj (h.symm.trans (getElem?_data_grid hr))⟩
  · exact .inr ⟨rfl, Option.some.inj (h.symm.trans (getElem?_data_grid_objective t))⟩

theorem modify?_eq {g : Grid K} {f : List K → Option (List K)} {row row' : List K} {data : List (List K)}
    (hread : g.data[i]? = some row) (hrow : f row = some row') (hwrite : write? g.data i row' = some data) :
    g.modify? i f = some { g with data := data } := by
  simp only [Grid.modify?, hread, hrow, hwrite, Option.bind_eq_bind, Option.bind_some]
  rfl

/-- Another row in the place of the objective's. -/
theorem modify?_grid {f : List K → Option (List K)} {e : Equation K}
    (h : f t.objective.line = some e.line) :
    t.grid.modify? t.rows.length f = some { t with objective := e }.grid := by
  have hlt : t.rows.length < t.grid.data.length := (length_data_grid t).symm ▸ Nat.lt_succ_self _
  have hset : t.grid.data.set t.rows.length e.line = { t with objective := e }.grid.data := by
    simp [grid]
  exact modify?_eq (getElem?_data_grid_objective t) h ((write?_eq hlt _).trans (congrArg some hset))

end Places

variable {t : Tableau K}

namespace Shaped

section Places

variable (h : t.Shaped)
include h

theorem withObjective {e : Equation K} (he : e.coefficients.length = t.numColumns) :
    { t with objective := e }.Shaped :=
  ⟨h.width, he, h.basic_lt⟩

theorem regular_grid : t.grid.Regular where
  width row hrow := by
    obtain ⟨i, hi⟩ := List.mem_iff_getElem?.mp hrow
    rcases line_of_getElem?_data hi with ⟨r, hr, rfl⟩ | ⟨-, rfl⟩
    · rw [Equation.length_line, h.width r (List.mem_of_getElem? hr)]
      rfl
    · rw [Equation.length_line, h.width_objective]
      rfl
  height := by rw [length_data_grid, length_basics_grid]
  basics b hb := by
    obtain ⟨r, hr, rfl⟩ := List.mem_map.mp hb
    exact h.basic_lt r hr

theorem pass?_grid : Grid.pass? Grid.Regular t.grid = some t.grid :=
  if_pos h.regular_grid

theorem width?_grid : t.grid.width? = some (t.numColumns + 1) := by
  have h0 : 0 < t.grid.data.length := (length_data_grid t).symm ▸ Nat.succ_pos _
  rw [Grid.width?, List.getElem?_eq_getElem h0, Option.map_some,
    h.regular_grid.width _ (List.getElem_mem h0)]
  rfl

theorem rhsColumn?_grid : t.grid.rhsColumn? = some t.numColumns := by
  rw [Grid.rhsColumn?, h.width?_grid]
  rfl

variable {i : ℕ} {r : BasicRow K} (hr : t.rows[i]? = some r)
include hr

theorem entry?_grid_rhs : t.grid.entry? i t.numColumns = some r.equation.rhs := by
  rw [Grid.entry?, getElem?_data_grid hr, ← h.width r (List.mem_of_getElem? hr)]
  exact Equation.getElem?_line_rhs _

/-- The row of the objective combined with another one. -/
theorem combine?_grid (f : K → K → K) : t.grid.combine? f (t.numColumns + 1) t.rows.length i =
    some { t with objective :=
      ⟨List.zipWith f t.objective.coefficients r.equation.coefficients,
        f t.objective.rhs r.equation.rhs⟩ }.grid := by
  have hw := h.width r (List.mem_of_getElem? hr)
  rw [Grid.combine?, getElem?_data_grid hr]
  refine modify?_grid ?_
  rw [Places.combine?_eq f (by rw [Equation.length_line, h.width_objective])
    (by rw [Equation.length_line, hw]), Equation.zipWith_line f (hw.trans h.width_objective.symm)]

end Places

section Entries

variable [Scalar K] (h : t.Shaped) {j : ℕ} (hj : j < t.numColumns)
include h hj

theorem entry?_grid {i : ℕ} {r : BasicRow K} (hr : t.rows[i]? = some r) :
    t.grid.entry? i j = some (r.equation.entry j) := by
  rw [Grid.entry?, getElem?_data_grid hr]
  exact Equation.getElem?_line (by rwa [h.width r (List.mem_of_getElem? hr)])

theorem entry?_grid_objective : t.grid.entry? t.rows.length j = some (t.objective.entry j) := by
  rw [Grid.entry?, getElem?_data_grid_objective]
  exact Equation.getElem?_line (by rwa [h.width_objective])

end Entries

end Shaped

variable [Scalar K]

/-! ## Choosing a pivot -/

theorem lt_of_entering? {tolerance : K} {eligible col : ℕ} {lowestIndex : Bool}
    (hcol : t.entering? tolerance eligible lowestIndex = some col) : col < eligible := by
  have hlength : (t.objective.coefficients.take eligible).length ≤ eligible := List.length_take_le ..
  refine lt_of_lt_of_le ?_ hlength
  cases lowestIndex with
  | true => exact (List.findIdx?_eq_some_iff_getElem.mp hcol).1
  | false =>
    -- the best column so far is one of those looked at
    refine List.foldlRecOn (motive := fun best : K × Option ℕ => ∀ j, best.2 = some j →
      j < (t.objective.coefficients.take eligible).length) _ _ (by rintro j ⟨⟩) ?_ col hcol
    intro best hbest c hc j hj
    split at hj
    · obtain rfl := Option.some.inj hj
      exact (List.mem_zipIdx' hc).1
    · exact hbest j hj

theorem Shaped.entering?_grid (h : t.Shaped) (tolerance : K) {eligible : ℕ}
    (heligible : eligible ≤ t.numColumns) (lowestIndex : Bool) :
    t.grid.entering? tolerance eligible lowestIndex =
      some (t.entering? tolerance eligible lowestIndex) := by
  have hlength : (t.objective.coefficients.take eligible).length = eligible := by
    rw [List.length_take, h.width_objective, min_eq_left heligible]
  have hread (j : ℕ) (c : K) (hc : (t.objective.coefficients.take eligible)[j]? = some c) :
      t.grid.entry? t.rows.length j = some c := by
    obtain ⟨hj, rfl⟩ := Equation.entry_of_getElem?_take hc
    exact h.entry?_grid_objective (hj.trans_le heligible)
  rw [Grid.entering?, objectiveRow?_grid, Tableau.entering?]
  cases lowestIndex with
  | true =>
    have hfind := findM?_range (l := t.objective.coefficients.take eligible)
      (f := t.grid.improves? tolerance t.rows.length) (p := fun c => Scalar.lt tolerance c)
      fun j c hc => by rw [Grid.improves?, hread j c hc]; rfl
    rw [hlength] at hfind
    exact hfind
  | false =>
    obtain ⟨best, hbest, rfl⟩ := foldlM_range_zipIdx (l := t.objective.coefficients.take eligible)
      (f := t.grid.costStep? t.rows.length)
      (g := fun best c => if Scalar.lt best.1 c.1 then (c.1, some c.2) else best)
      Eq (rfl : (tolerance, none) = (tolerance, none)) fun j c hc best _ hx => by
        subst hx
        rw [Grid.costStep?, hread j c hc]
        exact ⟨_, rfl, rfl⟩
    rw [hlength] at hbest
    exact congrArg (fun best? => best? >>= fun best => some best.2) hbest

omit [Scalar K] in
/-- The best row of the ratio test on the table is the candidate, whose basic variable is that of its row. -/
structure Tracks (t : Tableau K) (best? : Option (K × ℕ)) (candidate? : Option (Candidate K)) : Prop where
  kept : best? = candidate?.map fun c => (c.ratio, c.row)
  basic : ∀ c, candidate? = some c → ∃ r, t.rows[c.row]? = some r ∧ r.basic = c.basic

omit [Scalar K] in
theorem Tracks.none (t : Tableau K) : Tracks t none none :=
  ⟨rfl, fun _ hc => nomatch hc⟩

/-- One row of the ratio test. -/
theorem Tracks.ratioStep? (h : t.Shaped) {tolerance : K} {col : ℕ} (hcol : col < t.numColumns) {i : ℕ}
    {r : BasicRow K} (hr : t.rows[i]? = some r) {best? : Option (K × ℕ)} {candidate? : Option (Candidate K)}
    (hbest : Tracks t best? candidate?) :
    ∃ best?', t.grid.ratioStep? tolerance t.numColumns col best? i = some best?' ∧
      Tracks t best?' (ratioStep tolerance col candidate? r i) := by
  have hown : Tracks t (some (r.equation.rhs / r.equation.entry col, i))
      (some ⟨r.equation.rhs / r.equation.entry col, i, r.basic⟩) :=
    ⟨rfl, by rintro c ⟨rfl⟩; exact ⟨r, hr, rfl⟩⟩
  simp only [Grid.ratioStep?, h.entry?_grid hcol hr, h.entry?_grid_rhs hr, getElem?_basics_grid hr,
    Option.bind_eq_bind, Option.bind_some, ratioStep]
  split
  · exact ⟨_, rfl, hbest⟩
  · cases candidate? with
    | none =>
      obtain rfl := hbest.kept
      exact ⟨_, rfl, hown⟩
    | some best =>
      obtain rfl := hbest.kept
      obtain ⟨other, hother, hbasic⟩ := hbest.basic best rfl
      simp only [Option.map_some, getElem?_basics_grid hother, Option.bind_some, hbasic]
      split
      · exact ⟨_, rfl, hown⟩
      · exact ⟨_, rfl, hbest⟩

theorem Shaped.leaving?_grid (h : t.Shaped) (tolerance : K) {col : ℕ} (hcol : col < t.numColumns) :
    t.grid.leaving? tolerance col = some (t.leaving? tolerance col) ∧
      ∀ row, t.leaving? tolerance col = some row → row < t.rows.length := by
  obtain ⟨best?, hloop, hbest⟩ := foldlM_range_zipIdx (l := t.rows)
    (g := fun candidate? r => ratioStep tolerance col candidate? r.1 r.2) (Tracks t)
    (.none t) fun i r hr _ _ hbest => hbest.ratioStep? h hcol hr
  rw [Tableau.leaving?]
  constructor
  · -- both results forget all but the row
    rw [Grid.leaving?, h.rhsColumn?_grid, objectiveRow?_grid]
    refine (congrArg (fun best? => best? >>= fun best? => some (best?.map Prod.snd)) hloop).trans ?_
    rw [hbest.kept]
    exact congrArg some (Option.map_map ..)
  · intro row hrow
    obtain ⟨c, hc, rfl⟩ := Option.map_eq_some_iff.mp hrow
    obtain ⟨r, hr, -⟩ := hbest.basic c hc
    exact (List.getElem?_eq_some_iff.mp hr).1

/-! ## Pivoting -/

section Pivot

variable {row col : ℕ} {r : BasicRow K} (hr : t.rows[row]? = some r)
include hr

/-- The basic variables after a pivot. -/
theorem write?_basics_grid : write? t.grid.basics row col = some (t.pivot row col).grid.basics := by
  have hrow : row < t.rows.length := (List.getElem?_eq_some_iff.mp hr).1
  rw [write?_eq ((length_basics_grid t).symm ▸ hrow)]
  refine congrArg some (List.ext_getElem? fun k => ?_)
  simp only [grid, List.getElem?_set, List.getElem?_map, List.length_map, getElem?_rows_pivot hr,
    Option.map_map]
  by_cases hk : row = k
  · subst hk
    rw [if_pos rfl, if_pos hrow, hr]
    simp [pivoted]
  · rw [if_neg hk]
    refine congrArg (Option.map · t.rows[k]?) (funext fun s => ?_)
    simp [pivoted, Ne.symm hk]

theorem getElem?_data_pivot {i : ℕ} {s : BasicRow K} (hs : t.rows[i]? = some s) :
    (t.pivot row col).grid.data[i]? = some (pivoted col row r i s).equation.line :=
  getElem?_data_grid (by rw [getElem?_rows_pivot hr, hs]; rfl)

/-- The rows of the table after a pivot, that of the objective among them. -/
theorem Shaped.eliminate?_data (h : t.Shaped) (hcol : col < t.numColumns) {i : ℕ} {other : List K}
    (hi : i ≠ row) (hother : t.grid.data[i]? = some other) :
    Grid.eliminate? col (r.equation.divide (r.equation.entry col)).line other =
      (t.pivot row col).grid.data[i]? := by
  have hwidth {e : Equation K} (he : e.coefficients.length = t.numColumns) :
      (r.equation.divide (r.equation.entry col)).coefficients.length = e.coefficients.length := by
    rw [Equation.length_divide, h.width r (List.mem_of_getElem? hr), he]
  rcases line_of_getElem?_data hother with ⟨s, hs, rfl⟩ | ⟨rfl, rfl⟩
  · have hws := h.width s (List.mem_of_getElem? hs)
    rw [Equation.eliminate?_line (hws.symm ▸ hcol) (hwidth hws), getElem?_data_pivot hr hs, pivoted,
      if_neg hi]
  · rw [Equation.eliminate?_line (h.width_objective.symm ▸ hcol) (hwidth h.width_objective),
      ← objective_pivot hr, ← getElem?_data_grid_objective, length_rows_pivot]

theorem Shaped.pivot?_grid (h : t.Shaped) (hcol : col < t.numColumns) :
    t.grid.pivot? row col = some (t.pivot row col).grid := by
  have hw := h.width r (List.mem_of_getElem? hr)
  have hrow : row < t.grid.data.length := by
    rw [length_data_grid]
    exact Nat.lt_succ_of_lt (List.getElem?_eq_some_iff.mp hr).1
  have hdata : (t.grid.data.set row (r.equation.divide (r.equation.entry col)).line).zipIdx.mapM
      (fun other => if other.2 = row then some other.1
        else Grid.eliminate? col (r.equation.divide (r.equation.entry col)).line other.1) =
      some (t.pivot row col).grid.data := by
    refine mapM_zipIdx _ _ 0 (by simp [length_data_grid]) fun i other hother => ?_
    rw [Nat.zero_add]
    rw [List.getElem?_set] at hother
    split at hother
    · next hi =>
      subst hi
      rw [if_pos rfl, getElem?_data_pivot hr hr, pivoted, if_pos rfl]
      exact hother.symm
    · next hi =>
      rw [if_neg (Ne.symm hi)]
      exact h.eliminate?_data hr hcol (Ne.symm hi) hother
  have hentry : r.equation.line[col]? = some (r.equation.entry col) :=
    Equation.getElem?_line (hw.symm ▸ hcol)
  have hdivide : r.equation.line.map (· / r.equation.entry col) =
      (r.equation.divide (r.equation.entry col)).line :=
    Equation.map_line _ _
  simp only [Grid.pivot?, write?_basics_grid hr, getElem?_data_grid hr, hentry, hdivide, write?_eq hrow, hdata,
    Option.bind_eq_bind, Option.bind_some]
  simp only [Tableau.pivot, hr]
  rfl

end Pivot

/-! ## Between the phases -/

section Phases

omit [Scalar K]

theorem Shaped.drop (h : t.Shaped) (row : ℕ) : (t.drop row).Shaped where
  width r hr := h.width r (List.mem_of_mem_eraseIdx hr)
  width_objective := h.width_objective
  basic_lt r hr := h.basic_lt r (List.mem_of_mem_eraseIdx hr)

theorem drop?_grid {row : ℕ} (hrow : row < t.rows.length) :
    t.grid.drop? row = some (t.drop row).grid := by
  have hdata : row < t.grid.data.length := by rw [length_data_grid]; omega
  have hbasics : row < t.grid.basics.length := by rwa [length_basics_grid]
  rw [Grid.drop?, remove?_eq hdata, remove?_eq hbasics]
  simp [grid, Tableau.drop, List.eraseIdx_append_of_lt_length, hrow, List.eraseIdx_map]

/-- A loop over the rows that changes the objective only. -/
theorem Shaped.foldlM_rows_grid (h : t.Shaped) {f : Grid K → ℕ → Option (Grid K)}
    {g : Equation K → BasicRow K → Equation K}
    (hstep : ∀ i r, t.rows[i]? = some r → ∀ e : Equation K, e.coefficients.length = t.numColumns →
      f { t with objective := e }.grid i = some { t with objective := g e r }.grid ∧
        (g e r).coefficients.length = t.numColumns) :
    (List.range t.rows.length).foldlM f t.grid =
        some { t with objective := t.rows.foldl g t.objective }.grid ∧
      (t.rows.foldl g t.objective).coefficients.length = t.numColumns := by
  obtain ⟨last, hlast, rfl, hlength⟩ := foldlM_range_eq (l := t.rows) (f := f) (g := g)
    (fun table e => table = { t with objective := e }.grid ∧ e.coefficients.length = t.numColumns)
    ⟨rfl, h.width_objective⟩ fun i r hr table e ⟨htable, he⟩ => by
      subst htable
      exact ⟨_, (hstep i r hr e he).1, rfl, (hstep i r hr e he).2⟩
  exact ⟨hlast, hlength⟩

end Phases

namespace Shaped

section Row

variable (h : t.Shaped) {i : ℕ} {r : BasicRow K} (hr : t.rows[i]? = some r)
include h hr

theorem addArtificial?_grid :
    Grid.addArtificial? t.rows.length (t.numColumns + 1) t.grid i = some { t with
      objective := if t.isArtificial r then t.objective.add r.equation else t.objective }.grid := by
  rw [Grid.addArtificial?, getElem?_basics_grid hr]
  by_cases ha : t.firstArtificial ≤ r.basic
  · rw [isArtificial, decide_eq_true ha, if_pos rfl]
    exact (if_pos ha).trans (h.combine?_grid hr _)
  · rw [isArtificial, decide_eq_false ha, if_neg Bool.false_ne_true]
    exact if_neg ha

theorem clear?_grid (tolerance : K) :
    Grid.clear? tolerance t.rows.length (t.numColumns + 1) t.grid i = some { t with
      objective :=
        if Scalar.lt tolerance (Scalar.abs (t.objective.entry r.basic)) then
          t.objective.subtract (t.objective.entry r.basic) r.equation
        else t.objective }.grid := by
  simp only [Grid.clear?, getElem?_basics_grid hr, Option.bind_eq_bind, Option.bind_some,
    h.entry?_grid_objective (h.basic_lt r (List.mem_of_getElem? hr))]
  split
  · exact h.combine?_grid hr _
  · rfl

theorem vanishes?_grid (tolerance : K) : t.grid.vanishes? tolerance t.numColumns i =
    some (!t.isArtificial r || Scalar.le (Scalar.abs r.equation.rhs) tolerance) := by
  simp only [Grid.vanishes?, getElem?_basics_grid hr, h.entry?_grid_rhs hr, Option.bind_eq_bind,
    Option.bind_some]
  by_cases ha : t.firstArtificial ≤ r.basic
  · rw [isArtificial, decide_eq_true ha]
    exact if_pos ha
  · rw [isArtificial, decide_eq_false ha]
    exact if_neg ha

omit [Scalar K] in
theorem assign?_grid {values : List K} (hvalues : values.length = t.numVariables) :
    t.grid.assign? t.numColumns values i = some (values.set r.basic r.equation.rhs) := by
  simp only [Grid.assign?, getElem?_basics_grid hr, h.entry?_grid_rhs hr, Option.bind_eq_bind,
    Option.bind_some]
  split
  · next hbasic => exact write?_eq (hvalues.symm ▸ hbasic) _
  · next hbasic =>
    exact congrArg some (List.set_eq_of_length_le (hvalues.trans_le (not_lt.mp hbasic))).symm

theorem replacement?_grid (tolerance : K) :
    t.grid.replacement? tolerance i = some (t.replacement? tolerance r.equation) ∧
      ∀ col, t.replacement? tolerance r.equation = some col → col < t.numColumns := by
  have hle : t.firstArtificial ≤ t.numColumns := Nat.le_add_right _ _
  have hlength : (r.equation.coefficients.take t.firstArtificial).length = t.firstArtificial := by
    rw [List.length_take, h.width r (List.mem_of_getElem? hr), min_eq_left hle]
  constructor
  · have hfind := findM?_range (l := r.equation.coefficients.take t.firstArtificial)
      (f := t.grid.replaces? tolerance i) (p := fun a => Scalar.lt tolerance (Scalar.abs a))
      fun j a ha => by
        obtain ⟨hj, rfl⟩ := Equation.entry_of_getElem?_take ha
        rw [Grid.replaces?, h.entry?_grid (hj.trans_le hle) hr]
        rfl
    rw [hlength] at hfind
    exact hfind
  · intro col hcol
    exact (hlength ▸ (List.findIdx?_eq_some_iff_getElem.mp hcol).1).trans_le hle

end Row

variable (h : t.Shaped)
include h

theorem artificialObjective?_grid : t.grid.artificialObjective? t.rows.length (t.numColumns + 1) =
      some { t with objective := t.artificialObjective }.grid ∧
    t.artificialObjective.coefficients.length = t.numColumns := by
  -- the costs before the rows with artificial basic variables are added
  let costs : Equation K :=
    ⟨List.replicate t.firstArtificial 0 ++ List.replicate t.numArtificial (-1), 0⟩
  have hlength : costs.coefficients.length = t.numColumns := by simp [costs, firstArtificial, numColumns]
  have hcosts : (List.range t.grid.numArtificial).foldlM
      (fun row j => write? row (t.grid.firstArtificial + j) (-1))
      (List.replicate (t.numColumns + 1) (0 : K)) = some costs.line := by
    have hwrite :=
      foldlM_write?_replicate (List.replicate t.firstArtificial (0 : K)) [0] 0 (-1) t.numArtificial
    rw [List.length_replicate, ← List.replicate_add, ← List.replicate_succ'] at hwrite
    exact hwrite
  have hloop := (h.withObjective hlength).foldlM_rows_grid
    (f := Grid.addArtificial? t.rows.length (t.numColumns + 1))
    (g := fun e r => if t.isArtificial r then e.add r.equation else e) fun i r hr e he => by
      refine ⟨(h.withObjective he).addArtificial?_grid hr, ?_⟩
      have hw := h.width r (List.mem_of_getElem? hr)
      split
      · simp [Equation.add, hw, he, numColumns]
      · exact he
  rw [Grid.artificialObjective?, hcosts]
  refine ⟨?_, hloop.2⟩
  exact (congrArg (· >>= _) (modify?_grid (f := fun _ => some costs.line) rfl)).trans hloop.1

theorem restore?_grid (tolerance : K) {objective : Equation K}
    (hobjective : objective.coefficients.length = t.numColumns) :
    t.grid.restore? tolerance t.rows.length (t.numColumns + 1) objective.line =
        some { t with objective := t.price tolerance objective }.grid ∧
      (t.price tolerance objective).coefficients.length = t.numColumns := by
  have hloop := (h.withObjective hobjective).foldlM_rows_grid
    (f := Grid.clear? tolerance t.rows.length (t.numColumns + 1))
    (g := fun e r =>
      if Scalar.lt tolerance (Scalar.abs (e.entry r.basic)) then e.subtract (e.entry r.basic) r.equation
      else e) fun i r hr e he => by
      refine ⟨(h.withObjective he).clear?_grid hr tolerance, ?_⟩
      have hw := h.width r (List.mem_of_getElem? hr)
      split
      · exact (Equation.length_subtract (hw.trans he.symm) _).trans he
      · exact he
  rw [Grid.restore?]
  refine ⟨?_, hloop.2⟩
  exact (congrArg (· >>= _) (modify?_grid (f := fun _ => some objective.line) rfl)).trans hloop.1

theorem artificialsVanish?_grid (tolerance : K) :
    t.grid.artificialsVanish? tolerance = some (t.artificialsVanish tolerance) := by
  rw [Grid.artificialsVanish?, h.rhsColumn?_grid, objectiveRow?_grid, artificialsVanish, List.all_filter]
  exact allM_range fun i r hr => h.vanishes?_grid hr tolerance

theorem point?_grid : t.grid.point? = some t.point := by
  obtain ⟨values, hloop, rfl, -⟩ := foldlM_range_eq (l := t.rows) (f := t.grid.assign? t.numColumns)
    (g := fun values r => values.set r.basic r.equation.rhs)
    (fun values values' => values = values' ∧ values'.length = t.numVariables)
    (x := List.replicate t.numVariables 0) ⟨rfl, List.length_replicate⟩
    fun i r hr values _ ⟨hvalues, hlength⟩ => by
      subst hvalues
      exact ⟨_, h.assign?_grid hr hlength, rfl, by rw [List.length_set, hlength]⟩
  rw [Grid.point?, h.rhsColumn?_grid, length_basics_grid]
  exact hloop

end Shaped

end Tableau

end LinearProgram
