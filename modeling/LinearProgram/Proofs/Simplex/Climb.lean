import Mathlib
import LinearProgram.Simplex.Method
import LinearProgram.Proofs.Simplex.BasicSolution
import LinearProgram.Proofs.Simplex.Choice

/-!
# What a phase keeps and how it ends

A phase is a sequence of pivots, so whatever a pivot keeps, the phase keeps (`climb_induction`). Its
ending says what could not be found in the last tableau: an entering column, or a leaving row for the
column that enters.

The last two sections are about tableaux whose right-hand sides are not negative. Where no column
improves the objective, the basic solution is best among the solutions of the rows; where a column
improves it and no row leaves, the objective has no bound along the edge of that column.
-/

namespace LinearProgram.Simplex

/-! ## One step of a phase -/

section Steps

variable {K : Type} [Scalar K] {tolerance : K} {eligible : ℕ} {expired : ℕ → Bool}
  {left made : ℕ} {lowestIndex : Bool} {t : Tableau K}

theorem climb_converged (hcol : t.entering? tolerance eligible lowestIndex = none) :
    climb tolerance eligible expired left made lowestIndex t =
      ⟨.optimal, t, [.converged made]⟩ := by
  cases left <;> rw [climb, climbM, hcol] <;> rfl

theorem climb_pivotLimit {col : ℕ}
    (hcol : t.entering? tolerance eligible lowestIndex = some col) :
    climb tolerance eligible expired 0 made lowestIndex t = ⟨.pivotLimit, t, []⟩ := by
  rw [climb, climbM, hcol]
  rfl

theorem climb_timeLimit {col : ℕ}
    (hcol : t.entering? tolerance eligible lowestIndex = some col) (hexp : expired made = true) :
    climb tolerance eligible expired (left + 1) made lowestIndex t =
      ⟨.timeLimit, t, [.deadline made]⟩ := by
  rw [climb, climbM, hcol]
  simp only [hexp, pure_bind, if_true, Id.run_pure]

theorem climb_unbounded {col : ℕ}
    (hcol : t.entering? tolerance eligible lowestIndex = some col) (hexp : expired made = false)
    (hrow : t.leaving? tolerance col = none) :
    climb tolerance eligible expired (left + 1) made lowestIndex t = ⟨.unbounded, t, []⟩ := by
  rw [climb, climbM, hcol]
  simp only [hexp, hrow, pure_bind, Bool.false_eq_true, if_false, Id.run_pure]

/-- A pivot leads to the phase from the tableau after it. -/
theorem climb_pivot {col row : ℕ}
    (hcol : t.entering? tolerance eligible lowestIndex = some col) (hexp : expired made = false)
    (hrow : t.leaving? tolerance col = some row) :
    climb tolerance eligible expired (left + 1) made lowestIndex t =
      let rest := climb tolerance eligible expired left (made + 1)
        (isDegenerate tolerance t row) (t.pivot row col)
      { rest with steps := .pivot row col (isDegenerate tolerance t row) :: rest.steps } := by
  rw [climb, climbM, hcol]
  simp only [hexp, hrow, pure_bind, Bool.false_eq_true, if_false, Id.run_bind, Id.run_pure]
  rfl

end Steps

/-! ## Whole phases -/

section Phases

variable {K : Type} [Scalar K] {tolerance : K} {eligible : ℕ}

/-- What the pivots keep holds of the tableau that a phase ends with. -/
theorem climb_induction {P : Tableau K → Prop}
    (hstep : ∀ (t : Tableau K) (lowestIndex : Bool) (col row : ℕ), P t →
      t.entering? tolerance eligible lowestIndex = some col → t.leaving? tolerance col = some row →
      P (t.pivot row col))
    (expired : ℕ → Bool) (left made : ℕ) (lowestIndex : Bool) {t : Tableau K} (h : P t) :
    P (climb tolerance eligible expired left made lowestIndex t).tableau := by
  induction left generalizing made lowestIndex t with
  | zero =>
    cases hcol : t.entering? tolerance eligible lowestIndex with
    | none => rwa [climb_converged hcol]
    | some col => rwa [climb_pivotLimit hcol]
  | succ left ih =>
    cases hcol : t.entering? tolerance eligible lowestIndex with
    | none => rwa [climb_converged hcol]
    | some col =>
      cases hexp : expired made with
      | true => rwa [climb_timeLimit hcol hexp]
      | false =>
        cases hrow : t.leaving? tolerance col with
        | none => rwa [climb_unbounded hcol hexp hrow]
        | some row =>
          rw [climb_pivot hcol hexp hrow]
          exact ih _ _ (hstep t lowestIndex col row h hcol hrow)

/-- What a phase has not found when it ends: no entering column when it ends optimal, and no leaving
row for its entering column when it ends unbounded. -/
theorem climb_ending (tolerance : K) (eligible : ℕ) (expired : ℕ → Bool) (left made : ℕ)
    (lowestIndex : Bool) (t : Tableau K) :
    let c := climb tolerance eligible expired left made lowestIndex t
    match c.ending with
    | .optimal => ∃ b, c.tableau.entering? tolerance eligible b = none
    | .unbounded => ∃ b col, c.tableau.entering? tolerance eligible b = some col ∧
        c.tableau.leaving? tolerance col = none
    | .timeLimit => True
    | .pivotLimit => True := by
  induction left generalizing made lowestIndex t with
  | zero =>
    cases hcol : t.entering? tolerance eligible lowestIndex with
    | none => rw [climb_converged hcol]; exact ⟨_, hcol⟩
    | some col => rw [climb_pivotLimit hcol]; trivial
  | succ left ih =>
    cases hcol : t.entering? tolerance eligible lowestIndex with
    | none => rw [climb_converged hcol]; exact ⟨_, hcol⟩
    | some col =>
      cases hexp : expired made with
      | true => rw [climb_timeLimit hcol hexp]; trivial
      | false =>
        cases hrow : t.leaving? tolerance col with
        | none => rw [climb_unbounded hcol hexp hrow]; exact ⟨_, _, hcol, hrow⟩
        | some row => rw [climb_pivot hcol hexp hrow]; exact ih _ _ _

variable {expired : ℕ → Bool} {left made : ℕ} {lowestIndex : Bool} {t : Tableau K}

theorem entering?_of_ending_eq_optimal
    (h : (climb tolerance eligible expired left made lowestIndex t).ending = .optimal) :
    ∃ b, (climb tolerance eligible expired left made lowestIndex t).tableau.entering? tolerance
      eligible b = none := by
  have hlast := climb_ending tolerance eligible expired left made lowestIndex t
  simp only [h] at hlast
  exact hlast

theorem leaving?_of_ending_eq_unbounded
    (h : (climb tolerance eligible expired left made lowestIndex t).ending = .unbounded) :
    ∃ b col, (climb tolerance eligible expired left made lowestIndex t).tableau.entering? tolerance
        eligible b = some col ∧
      (climb tolerance eligible expired left made lowestIndex t).tableau.leaving? tolerance col =
        none := by
  have hlast := climb_ending tolerance eligible expired left made lowestIndex t
  simp only [h] at hlast
  exact hlast

end Phases

end LinearProgram.Simplex

namespace LinearProgram.Tableau

/-! ## Equivalent tableaux -/

/-- `t` has the columns and the solutions of `t₀`, and on them the same objective. -/
structure Equivalent (t₀ t : Tableau ℚ) : Prop where
  numVariables : t.numVariables = t₀.numVariables
  firstArtificial : t.firstArtificial = t₀.firstArtificial
  numColumns : t.numColumns = t₀.numColumns
  solves_iff : ∀ x, t.Solves x ↔ t₀.Solves x
  gap_objective : ∀ x, t₀.Solves x → t.objective.gap x = t₀.objective.gap x

theorem Equivalent.refl (t : Tableau ℚ) : Equivalent t t :=
  ⟨rfl, rfl, rfl, fun _ => Iff.rfl, fun _ _ => rfl⟩

theorem Equivalent.trans {t₀ t₁ t₂ : Tableau ℚ} (h₁ : Equivalent t₀ t₁) (h₂ : Equivalent t₁ t₂) :
    Equivalent t₀ t₂ where
  numVariables := h₂.numVariables.trans h₁.numVariables
  firstArtificial := h₂.firstArtificial.trans h₁.firstArtificial
  numColumns := h₂.numColumns.trans h₁.numColumns
  solves_iff x := (h₂.solves_iff x).trans (h₁.solves_iff x)
  gap_objective x hx :=
    (h₂.gap_objective x ((h₁.solves_iff x).mpr hx)).trans (h₁.gap_objective x hx)

variable {t : Tableau ℚ}

theorem Canonical.equivalent_pivot (h : t.Canonical) {row col : ℕ} {r : BasicRow ℚ}
    (hr : t.rows[row]? = some r) (hp : r.equation.entry col ≠ 0) :
    Equivalent t (t.pivot row col) where
  numVariables := numVariables_pivot
  firstArtificial := firstArtificial_pivot
  numColumns := numColumns_pivot
  solves_iff := solves_pivot h hr hp
  gap_objective _ hx := gap_objective_pivot h hr hx

/-- A phase ends with an equivalent canonical tableau, whatever its tolerance. -/
theorem Canonical.climb (h : t.Canonical) {tolerance : ℚ} (h0 : 0 ≤ tolerance) (eligible : ℕ)
    (expired : ℕ → Bool) (left made : ℕ) (lowestIndex : Bool) :
    let c := Simplex.climb tolerance eligible expired left made lowestIndex t
    c.tableau.Canonical ∧ Equivalent t c.tableau := by
  refine Simplex.climb_induction (P := fun t' => t'.Canonical ∧ Equivalent t t') ?_
    expired left made lowestIndex ⟨h, Equivalent.refl t⟩
  intro t' _ col row ⟨hc, he⟩ _ hrow
  obtain ⟨r, hr, hlt, -⟩ := competes_of_leaving?_eq_some hrow
  have hp : r.equation.entry col ≠ 0 := (lt_of_le_of_lt h0 hlt).ne'
  exact ⟨hc.pivot hr hp, he.trans (hc.equivalent_pivot hr hp)⟩

/-- Every basic variable is one of the program's variables, a slack or a surplus. -/
def Structural (t : Tableau ℚ) : Prop :=
  ∀ r ∈ t.rows, r.basic < t.firstArtificial

theorem Structural.isBasic_eq_false (h : t.Structural) {j : ℕ} (hj : t.firstArtificial ≤ j) :
    t.isBasic j = false := by
  rw [← Bool.not_eq_true, isBasic_eq_true]
  rintro ⟨r, hr, rfl⟩
  exact not_le.mpr (h r hr) hj

/-- A phase without artificial columns brings no artificial variable into the basis. -/
theorem Structural.climb (h : t.Structural) {tolerance : ℚ} (expired : ℕ → Bool)
    (left made : ℕ) (lowestIndex : Bool) :
    let c := Simplex.climb tolerance t.firstArtificial expired left made lowestIndex t
    c.tableau.Structural ∧ c.tableau.firstArtificial = t.firstArtificial := by
  refine Simplex.climb_induction
    (P := fun t' => t'.Structural ∧ t'.firstArtificial = t.firstArtificial) ?_
    expired left made lowestIndex ⟨h, rfl⟩
  intro t' _ col row ⟨hs, hfirst⟩ hcol hrow
  obtain ⟨r, hr, -⟩ := competes_of_leaving?_eq_some hrow
  refine ⟨?_, firstArtificial_pivot.trans hfirst⟩
  intro s' hs'
  obtain ⟨k, s, hks, rfl⟩ := mem_rows_pivot hr hs'
  rw [firstArtificial_pivot, pivoted]
  split
  · exact hfirst ▸ (lt_entry_of_entering?_eq_some hcol).1
  · exact hs s (List.mem_of_getElem? hks)

/-! ## Phases without a tolerance -/

/-- What a phase starts from and keeps when no tolerance blurs its choices. -/
structure Primal (t : Tableau ℚ) : Prop extends t.Canonical where
  priced : t.Priced
  feasible : t.Feasible

theorem Primal.pivot (h : t.Primal) {row col : ℕ} (hrow : t.leaving? 0 col = some row) :
    (t.pivot row col).Primal := by
  obtain ⟨r, hr, hlt, -⟩ := competes_of_leaving?_eq_some hrow
  exact ⟨h.toCanonical.pivot hr hlt.ne', h.priced.pivot h.toCanonical hr hlt.ne', h.feasible.pivot hrow⟩

theorem Primal.climb (h : t.Primal) (eligible : ℕ) (expired : ℕ → Bool) (left made : ℕ)
    (lowestIndex : Bool) :
    (Simplex.climb 0 eligible expired left made lowestIndex t).tableau.Primal :=
  Simplex.climb_induction (fun _ _ _ _ h _ hrow => h.pivot hrow) expired left made lowestIndex h

/-- Where no eligible column improves the objective, no solution has a better one than the basic
solution, among those that are not negative and do without the other columns. -/
theorem Primal.gap_objective_le (h : t.Primal) {eligible : ℕ} {lowestIndex : Bool}
    (hcol : t.entering? 0 eligible lowestIndex = none) {x : ℕ → ℚ} (hx : ∀ j, 0 ≤ x j)
    (hzero : ∀ j, eligible ≤ j → j < t.numColumns → x j = 0) :
    t.objective.gap x ≤ t.objective.gap t.basicSolution := by
  have hlhs : t.objective.lhs x ≤ 0 := by
    refine dot_nonpos ?_
    intro j hj
    rcases lt_or_ge j eligible with hlt | hge
    · exact mul_nonpos_of_nonpos_of_nonneg
        (entry_le_of_entering?_eq_none le_rfl hcol hlt) (hx j)
    · rw [hzero j hge (h.width_objective ▸ hj), mul_zero]
  rw [gap_objective_basicSolution h.priced, Equation.gap]
  linarith

section Unbounded

variable (h : t.Primal) {eligible col : ℕ} {lowestIndex : Bool}
  (hcol : t.entering? 0 eligible lowestIndex = some col)
include h hcol

/-- An entering column is not in the basis. -/
theorem Primal.isBasic_entering : t.isBasic col = false := by
  rw [← Bool.not_eq_true, isBasic_eq_true]
  rintro ⟨r, hr, rfl⟩
  have hlt := (lt_entry_of_entering?_eq_some hcol).2
  rw [h.priced r hr] at hlt
  exact lt_irrefl _ hlt

/-- Where a column improves the objective and no row leaves for it, the objective exceeds every bound on
its edge. -/
theorem Primal.exists_edge_gt (hrow : t.leaving? 0 col = none) (B : ℚ) :
    ∃ θ, (∀ j, 0 ≤ t.edge col θ j) ∧ B < t.objective.gap (t.edge col θ) := by
  have hle : ∀ r ∈ t.rows, r.equation.entry col ≤ 0 := by
    intro r hr
    have hcomp := leaving?_eq_none_iff.mp hrow r hr
    rwa [h.feasible.competes_iff hr, not_lt] at hcomp
  have hnb := h.isBasic_entering hcol
  have hpos := (lt_entry_of_entering?_eq_some hcol).2
  -- far enough for the growth of the objective to make up for where it starts
  have hθ : (B + t.objective.rhs) / t.objective.entry col <
      max 0 ((B + t.objective.rhs) / t.objective.entry col + 1) :=
    lt_of_lt_of_le (lt_add_one _) (le_max_right _ _)
  refine ⟨max 0 ((B + t.objective.rhs) / t.objective.entry col + 1),
    edge_nonneg hnb h.toCanonical h.feasible hle (le_max_left 0 _), ?_⟩
  rw [div_lt_iff₀ hpos] at hθ
  rw [gap_objective_edge hnb h.priced]
  linarith

end Unbounded

end LinearProgram.Tableau
