import Mathlib
import LinearProgram.Proofs.Simplex.BasicSolution
import LinearProgram.Proofs.Simplex.Layout
import LinearProgram.Proofs.Model.Feasibility

/-!
# The starting tableau

The starting tableau of a rectangular program is canonical, has no negative right-hand side, and is the
program: an assignment satisfies the constraints exactly when it extends, by slacks and surpluses that
are not negative and artificial variables that are zero, to a solution of the rows.
-/

namespace LinearProgram

/-- Every row has one coefficient for each variable, and so has the objective. -/
structure DenseProgram.Rectangular {K : Type} (p : DenseProgram K) : Prop where
  objective : p.objective.length = p.numVariables
  rows : ∀ r ∈ p.rows, r.coefficients.length = p.numVariables

theorem Model.rectangular_dense {K : Type} [Scalar K] (m : Model K) : m.dense.Rectangular where
  objective := by
    rw [numVariables_dense]
    exact LinearExpr.length_dense _ _
  rows := by
    intro r hr
    obtain ⟨c, -, rfl⟩ := List.mem_map.mp hr
    rw [numVariables_dense]
    exact LinearExpr.length_dense _ _

/-! ## Oriented constraints -/

namespace DenseRow

theorem rhs_oriented_nonneg (r : DenseRow ℚ) : 0 ≤ r.oriented.rhs := by
  unfold oriented
  split
  · next h => exact (Scalar.le_rat _ _).mp h
  · next h =>
    have hneg : ¬(0 : ℚ) ≤ r.rhs := fun hle => h ((Scalar.le_rat _ _).mpr hle)
    show 0 ≤ -r.rhs
    linarith

/-- Orienting a constraint does not change when it holds. -/
theorem holds_oriented (r : DenseRow ℚ) (x : ℕ → ℚ) (margin : ℚ) :
    r.oriented.relation.holds (dot r.oriented.coefficients x) r.oriented.rhs margin =
      r.relation.holds (dot r.coefficients x) r.rhs margin := by
  unfold oriented
  split
  · rfl
  · show r.relation.flip.holds (dot (r.coefficients.map fun c => -c) x) (-r.rhs) margin = _
    rw [dot_map_neg, Relation.holds_flip_neg]

end DenseRow

namespace Tableau

section Shape

variable {K : Type} [Scalar K] {p : DenseProgram K}

/-- The oriented constraints of a program with their columns. -/
def placed (p : DenseProgram K) : List (Placed K) :=
  place (p.rows.map DenseRow.oriented) p.numVariables (p.numVariables + (ofProgram p).numSlack)

theorem rows_ofProgram : (ofProgram p).rows =
    (placed p).map (Placed.toRow ((ofProgram p).numSlack + (ofProgram p).numArtificial)) :=
  layOut_eq_map_place _ _ _ _

theorem getElem?_rows_ofProgram {k : ℕ} {r : BasicRow K} (hr : (ofProgram p).rows[k]? = some r) :
    ∃ q, (placed p)[k]? = some q ∧
      r = q.toRow ((ofProgram p).numSlack + (ofProgram p).numArtificial) := by
  rw [rows_ofProgram, List.getElem?_map, Option.map_eq_some_iff] at hr
  obtain ⟨q, hq, rfl⟩ := hr
  exact ⟨q, hq, rfl⟩

theorem mem_rows_ofProgram {r : BasicRow K} (hr : r ∈ (ofProgram p).rows) : ∃ q ∈ placed p,
    r = q.toRow ((ofProgram p).numSlack + (ofProgram p).numArtificial) := by
  obtain ⟨k, hk⟩ := List.mem_iff_getElem?.mp hr
  obtain ⟨q, hq, h⟩ := getElem?_rows_ofProgram hk
  exact ⟨q, List.mem_of_getElem? hq, h⟩

theorem toRow_mem_rows_ofProgram {q : Placed K} (hq : q ∈ placed p) :
    q.toRow ((ofProgram p).numSlack + (ofProgram p).numArtificial) ∈ (ofProgram p).rows := by
  rw [rows_ofProgram]
  exact List.mem_map.mpr ⟨q, hq, rfl⟩

theorem exists_row_of_mem_placed {q : Placed K} (hq : q ∈ placed p) :
    ∃ r ∈ p.rows, q.row = r.oriented := by
  have hrow : q.row ∈ (placed p).map Placed.row := List.mem_map.mpr ⟨q, hq, rfl⟩
  rw [placed, map_row_place] at hrow
  obtain ⟨r, hr, h⟩ := List.mem_map.mp hrow
  exact ⟨r, hr, h.symm⟩

theorem exists_mem_placed {r : DenseRow K} (hr : r ∈ p.rows) : ∃ q ∈ placed p, q.row = r.oriented := by
  have hrow : r.oriented ∈ (placed p).map Placed.row := by
    rw [placed, map_row_place]
    exact List.mem_map.mpr ⟨r, hr, rfl⟩
  exact List.mem_map.mp hrow

variable (h : p.Rectangular)
include h

theorem length_startingCosts : (startingCosts p).length = p.numVariables := by
  unfold startingCosts
  split
  · exact h.objective
  · rw [List.length_map, h.objective]

theorem fits_of_mem_placed {q : Placed K} (hq : q ∈ placed p) :
    q.Fits p.numVariables (ofProgram p).numSlack (ofProgram p).numArtificial := by
  obtain ⟨r, hr, hrow⟩ := exists_row_of_mem_placed hq
  obtain ⟨⟨hs, hs'⟩, ⟨ha, ha'⟩⟩ := place_bounds hq
  refine ⟨?_, fun hq => ⟨hs, hs' hq⟩, fun hq => ⟨ha, ha' hq⟩⟩
  rw [hrow, DenseRow.length_oriented, h.rows r hr]

theorem shaped_ofProgram : (ofProgram p).Shaped where
  width := by
    intro r hr
    obtain ⟨q, hq, rfl⟩ := mem_rows_ofProgram hr
    rw [Placed.length_toRow, (fits_of_mem_placed h hq).width, numColumns, Nat.add_assoc]
    rfl
  width_objective := by
    rw [numColumns, Nat.add_assoc]
    refine List.length_append.trans ?_
    rw [length_startingCosts h, List.length_replicate]
    rfl
  basic_lt := by
    intro r hr
    obtain ⟨q, hq, rfl⟩ := mem_rows_ofProgram hr
    rw [Placed.basic_toRow]
    exact (fits_of_mem_placed h hq).basic_bounds.2

end Shape

/-! ## Exact arithmetic -/

variable {p : DenseProgram ℚ}

theorem feasible_ofProgram : (ofProgram p).Feasible := by
  intro r hr
  obtain ⟨q, hq, rfl⟩ := mem_rows_ofProgram hr
  obtain ⟨r, -, hrow⟩ := exists_row_of_mem_placed hq
  rw [Placed.rhs_toRow, hrow]
  exact r.rhs_oriented_nonneg

/-- Different rows have different slack columns and different artificial columns. -/
theorem columns_ne {i k : ℕ} {q q' : Placed ℚ} (hq : (placed p)[i]? = some q)
    (hq' : (placed p)[k]? = some q') (hik : i ≠ k) :
    (hasSlack q.row = true → hasSlack q'.row = true → q.slack ≠ q'.slack) ∧
      (hasArtificial q.row = true → hasArtificial q'.row = true → q.artificial ≠ q'.artificial) := by
  have hpair := pairwise_place (p.rows.map DenseRow.oriented) p.numVariables
    (p.numVariables + (ofProgram p).numSlack)
  rw [List.pairwise_iff_getElem] at hpair
  obtain ⟨hi, hqi⟩ := List.getElem?_eq_some_iff.mp hq
  obtain ⟨hk, hqk⟩ := List.getElem?_eq_some_iff.mp hq'
  rcases lt_or_gt_of_ne hik with hlt | hgt
  · obtain ⟨h1, h2⟩ := hpair i k hi hk hlt
    rw [← hqi, ← hqk]
    exact ⟨fun h _ => (h1 h).ne, fun h _ => (h2 h).ne⟩
  · obtain ⟨h1, h2⟩ := hpair k i hk hi hgt
    rw [← hqi, ← hqk]
    exact ⟨fun _ h => (h1 h).ne', fun _ h => (h2 h).ne'⟩

/-- Each slack or surplus column belongs to a row. -/
theorem exists_slack {j : ℕ} (hj : p.numVariables ≤ j) (hj' : j < (ofProgram p).firstArtificial) :
    ∃ q ∈ placed p, hasSlack q.row = true ∧ q.slack = j :=
  (exists_mem_place _ _ _).1 j hj hj'

/-- Each artificial column belongs to a row. -/
theorem exists_artificial {j : ℕ} (hj : (ofProgram p).firstArtificial ≤ j)
    (hj' : j < (ofProgram p).numColumns) :
    ∃ q ∈ placed p, hasArtificial q.row = true ∧ q.artificial = j :=
  (exists_mem_place _ _ _).2 j hj hj'

section Columns

variable (h : p.Rectangular) {i k : ℕ} {q q' : Placed ℚ} (hq : (placed p)[i]? = some q)
  (hq' : (placed p)[k]? = some q')
include h hq hq'

/-- A slack or surplus column is in its own row only. -/
theorem entry_slack_column (hs : hasSlack q.row = true) :
    (q'.toRow ((ofProgram p).numSlack + (ofProgram p).numArtificial)).equation.entry q.slack =
      if k = i then slackCoefficient q.row.relation else 0 := by
  have hbounds := (fits_of_mem_placed h (List.mem_of_getElem? hq)).slack hs
  rw [(fits_of_mem_placed h (List.mem_of_getElem? hq')).entry_toRow_slack hbounds.1 hbounds.2]
  by_cases hki : k = i
  · subst hki
    rw [← Option.some.inj (hq.symm.trans hq'), if_pos rfl, if_pos rfl, mul_one]
  · rw [if_neg hki]
    by_cases hs' : hasSlack q'.row = true
    · rw [if_neg ((columns_ne hq' hq hki).1 hs' hs), mul_zero]
    · rw [slackCoefficient_eq_zero hs', zero_mul]

/-- An artificial column is in its own row only. -/
theorem entry_artificial_column (ha : hasArtificial q.row = true) :
    (q'.toRow ((ofProgram p).numSlack + (ofProgram p).numArtificial)).equation.entry q.artificial =
      if k = i then 1 else 0 := by
  have hbounds := (fits_of_mem_placed h (List.mem_of_getElem? hq)).artificial ha
  rw [(fits_of_mem_placed h (List.mem_of_getElem? hq')).entry_toRow_artificial hbounds.1,
    artificialCoefficient_eq]
  by_cases hki : k = i
  · subst hki
    rw [← Option.some.inj (hq.symm.trans hq'), if_pos ha, if_pos rfl, if_pos rfl, mul_one]
  · rw [if_neg hki]
    by_cases ha' : hasArtificial q'.row = true
    · rw [if_neg ((columns_ne hq' hq hki).2 ha' ha), mul_zero]
    · rw [if_neg ha', zero_mul]

end Columns

theorem canonical_ofProgram (h : p.Rectangular) : (ofProgram p).Canonical := by
  refine ⟨shaped_ofProgram h, ?_⟩
  intro i k r s hr hs
  obtain ⟨q, hq, rfl⟩ := getElem?_rows_ofProgram hr
  obtain ⟨q', hq', rfl⟩ := getElem?_rows_ofProgram hs
  rw [Placed.basic_toRow, Placed.basic]
  by_cases ha : hasArtificial q.row = true
  · rw [if_pos ha, entry_artificial_column h hq hq' ha]
  · rw [if_neg ha, entry_slack_column h hq hq' (hasSlack_of_not_hasArtificial ha),
      slackCoefficient_eq_one ha]

/-- The objective does not mention the variables that start in the basis. -/
theorem priced_ofProgram (h : p.Rectangular) : (ofProgram p).Priced := by
  intro r hr
  obtain ⟨q, hq, rfl⟩ := mem_rows_ofProgram hr
  rw [Placed.basic_toRow]
  refine (getD_append_zeros _ _ _).trans (List.getD_eq_default _ _ ?_)
  rw [length_startingCosts h]
  exact (fits_of_mem_placed h hq).basic_bounds.1

/-! ## Solutions of the rows and of the constraints -/

/-- A solution of the rows meets every constraint as closely as its own columns say. -/
theorem holds_iff_within (h : p.Rectangular) {x : ℕ → ℚ} (hx : (ofProgram p).Solves x)
    {q : Placed ℚ} (hq : q ∈ placed p) {r : DenseRow ℚ} (hr : q.row = r.oriented) (margin : ℚ) :
    r.relation.holds (dot r.coefficients x) r.rhs margin = true ↔ q.Within margin x := by
  rw [← DenseRow.holds_oriented, ← hr]
  exact (fits_of_mem_placed h hq).holds_iff (hx _ (toRow_mem_rows_ofProgram hq)) margin

/-- Where the artificial variables are zero, a row says how its slack makes up for the constraint. -/
theorem gap_toRow_of_unaided (h : p.Rectangular) {q : Placed ℚ} (hq : q ∈ placed p) {x : ℕ → ℚ}
    (hun : ∀ j, (ofProgram p).firstArtificial ≤ j → j < (ofProgram p).numColumns → x j = 0) :
    (q.toRow ((ofProgram p).numSlack + (ofProgram p).numArtificial)).equation.gap x =
      dot q.row.coefficients x + slackCoefficient q.row.relation * x q.slack - q.row.rhs := by
  have hfits := fits_of_mem_placed h hq
  have hartificial : artificialCoefficient q.row.relation * x q.artificial = 0 := by
    by_cases ha : hasArtificial q.row = true
    · rw [hun _ (hfits.artificial ha).1 (hfits.artificial ha).2, mul_zero]
    · rw [artificialCoefficient_eq, if_neg ha, zero_mul]
  rw [hfits.gap_toRow, hartificial, add_zero]

/-- A solution of the rows that is not negative and does without artificial variables meets every
constraint. -/
theorem holds_of_solves (h : p.Rectangular) {x : ℕ → ℚ} (hx : (ofProgram p).Solves x)
    (hnonneg : ∀ j, 0 ≤ x j)
    (hun : ∀ j, (ofProgram p).firstArtificial ≤ j → j < (ofProgram p).numColumns → x j = 0)
    {r : DenseRow ℚ} (hr : r ∈ p.rows) :
    r.relation.holds (dot r.coefficients x) r.rhs 0 = true := by
  obtain ⟨q, hq, hrow⟩ := exists_mem_placed hr
  have hfits := fits_of_mem_placed h hq
  have hartificial (ha : hasArtificial q.row = true) : x q.artificial = 0 :=
    hun _ (hfits.artificial ha).1 (hfits.artificial ha).2
  have hslack := hnonneg q.slack
  rw [holds_iff_within h hx hq hrow, Placed.Within]
  unfold hasArtificial at hartificial
  revert hartificial
  cases q.row.relation with
  | le => intro _; rwa [neg_zero]
  | ge => intro ha; rwa [ha rfl, sub_zero, neg_zero]
  | eq => intro ha; rw [ha rfl, abs_zero]

/-- The objective of the starting tableau is that of the program, negated where the program
minimizes. -/
theorem gap_objective_ofProgram (x : ℕ → ℚ) : (ofProgram p).objective.gap x =
    p.sense.score (dot p.objective x) := by
  have hcosts : (ofProgram p).objective.gap x = dot (startingCosts p) x := by
    show dot (startingCosts p ++ List.replicate _ 0) x - 0 = _
    rw [dot_append_zeros, sub_zero]
  rw [hcosts, startingCosts]
  cases p.sense with
  | maximize => rfl
  | minimize => exact dot_map_neg _ _

/-- What a constraint leaves for its slack or surplus variable. -/
def Placed.leeway (q : Placed ℚ) (v : ℕ → ℚ) : ℚ :=
  slackCoefficient q.row.relation * (q.row.rhs - dot q.row.coefficients v)

/-- Values for the columns of the starting tableau: those given for the program's variables, what the
constraints leave for the slacks and surpluses, and zero for the artificial variables. -/
def extend (p : DenseProgram ℚ) (v : ℕ → ℚ) : ℕ → ℚ := fun j =>
  if j < p.numVariables then v j
  else match (placed p).find? fun q => hasSlack q.row && q.slack == j with
    | some q => q.leeway v
    | none => 0

theorem extend_of_lt {j : ℕ} (hj : j < p.numVariables) (v : ℕ → ℚ) : extend p v j = v j :=
  if_pos hj

theorem mem_placed_of_find? {j : ℕ} {q : Placed ℚ}
    (hq : ((placed p).find? fun q => hasSlack q.row && q.slack == j) = some q) :
    q ∈ placed p ∧ hasSlack q.row = true ∧ q.slack = j := by
  have hprop := List.find?_some hq
  rw [Bool.and_eq_true, beq_iff_eq] at hprop
  exact ⟨List.mem_of_find?_eq_some hq, hprop⟩

section Extend

variable (h : p.Rectangular)
include h

theorem extend_slack {q : Placed ℚ} (hq : q ∈ placed p) (hs : hasSlack q.row = true)
    (v : ℕ → ℚ) : extend p v q.slack = q.leeway v := by
  have hbounds := (fits_of_mem_placed h hq).slack hs
  rw [extend, if_neg (by omega)]
  cases hf : (placed p).find? fun q' => hasSlack q'.row && q'.slack == q.slack with
  | none =>
    have hne := List.find?_eq_none.mp hf q hq
    simp [hs] at hne
  | some q' =>
    obtain ⟨hq', hs', heq⟩ := mem_placed_of_find? hf
    obtain ⟨i, hi⟩ := List.mem_iff_getElem?.mp hq
    obtain ⟨k, hk⟩ := List.mem_iff_getElem?.mp hq'
    have hik : k = i := by
      by_contra hne
      exact (columns_ne hk hi hne).1 hs' hs heq
    rw [hik] at hk
    rw [Option.some.inj (hk.symm.trans hi)]

theorem extend_artificial {j : ℕ} (hj : (ofProgram p).firstArtificial ≤ j) (v : ℕ → ℚ) :
    extend p v j = 0 := by
  have hfirst : (ofProgram p).firstArtificial = p.numVariables + (ofProgram p).numSlack := rfl
  rw [extend, if_neg (by omega)]
  cases hf : (placed p).find? fun q => hasSlack q.row && q.slack == j with
  | none => rfl
  | some q =>
    obtain ⟨hq, hs, heq⟩ := mem_placed_of_find? hf
    have hbounds := (fits_of_mem_placed h hq).slack hs
    omega

omit h in
theorem dot_extend {q : Placed ℚ} {n numSlack numArtificial : ℕ}
    (hfits : q.Fits n numSlack numArtificial) (hn : n = p.numVariables) (v : ℕ → ℚ) :
    dot q.row.coefficients (extend p v) = dot q.row.coefficients v := by
  refine dot_congr ?_
  intro j hj
  rw [hfits.width, hn] at hj
  exact extend_of_lt hj v

/-- Feasible columns extend to a solution of the rows. -/
theorem solves_extend {v : ℕ → ℚ} (hv : p.Feasible v) : (ofProgram p).Solves (extend p v) := by
  intro r hr
  obtain ⟨q, hq, rfl⟩ := mem_rows_ofProgram hr
  rw [gap_toRow_of_unaided h hq fun j hj _ => extend_artificial h hj v,
    dot_extend (fits_of_mem_placed h hq) rfl]
  by_cases hs : hasSlack q.row = true
  · rw [extend_slack h hq hs, Placed.leeway]
    linear_combination (q.row.rhs - dot q.row.coefficients v) * slackCoefficient_mul_self hs
  · -- an equation has no slack, and holds as it is
    obtain ⟨r, hr, hrow⟩ := exists_row_of_mem_placed hq
    have hholds := hv.holds r hr
    have hrel : q.row.relation = .eq := not_not.mp (mt hasSlack_eq_true.mpr hs)
    rw [← DenseRow.holds_oriented, ← hrow, hrel, Relation.holds_eq, abs_nonpos_iff] at hholds
    rw [slackCoefficient_eq_zero hs]
    linarith

omit h in
/-- The extension of feasible columns is not negative. -/
theorem extend_nonneg {v : ℕ → ℚ} (hv : p.Feasible v) (j : ℕ) : 0 ≤ extend p v j := by
  unfold extend
  split
  · exact hv.nonneg j
  · split
    · next q hq =>
      obtain ⟨hmem, hs, -⟩ := mem_placed_of_find? hq
      obtain ⟨r, hr, hrow⟩ := exists_row_of_mem_placed hmem
      have hholds := hv.holds r hr
      rw [← DenseRow.holds_oriented, ← hrow] at hholds
      unfold Placed.leeway
      revert hholds hs
      unfold hasSlack
      cases q.row.relation with
      | le => intro _ hholds; rw [Relation.holds_le] at hholds; simp only [slackCoefficient]; linarith
      | ge => intro _ hholds; rw [Relation.holds_ge] at hholds; simp only [slackCoefficient]; linarith
      | eq => intro hs; exact absurd hs (by simp)
    · exact le_rfl

end Extend

/-! ## Points -/

/-- A point read off a canonical tableau has the values of the basic solution. -/
theorem valueAt_point {m : Model ℚ} {t : Tableau ℚ} (h : t.Canonical)
    (hn : t.numVariables = m.numVariables) : m.valueAt t.point = m.assignment t.basicSolution := by
  rw [m.valueAt_eq_assignment]
  exact Model.assignment_congr fun j hj => getD_point h (hn ▸ hj)

end Tableau

end LinearProgram
