import Mathlib
import LinearProgram.Proofs.Simplex.Canonical

/-!
# The solutions of a canonical tableau

In a canonical tableau the columns outside the basis are free: `complete` takes their values from an
assignment and solves each row for its basic variable. The basic solution is the completion of zeros,
and the completions that move one column trace the edge along which that column enters the basis.
-/

namespace LinearProgram.Tableau

/-- Whether some row has that basic variable. -/
def isBasic (t : Tableau ℚ) (j : ℕ) : Bool :=
  t.rows.any fun r => r.basic == j

/-- The values outside the basis, with zeros in the basis. -/
def outside (t : Tableau ℚ) (y : ℕ → ℚ) : ℕ → ℚ :=
  fun j => if t.isBasic j then 0 else y j

/-- The solution of the rows that has the values of `y` outside the basis. -/
def complete (t : Tableau ℚ) (y : ℕ → ℚ) : ℕ → ℚ := fun j =>
  match t.rows.find? fun r => r.basic == j with
  | some r => -r.equation.gap (t.outside y)
  | none => y j

/-- The right-hand sides in the basis, and zero outside. -/
def basicSolution (t : Tableau ℚ) : ℕ → ℚ :=
  t.complete fun _ => 0

/-- The solution that has the value `θ` in column `col` and zero in the others outside the basis. -/
def edge (t : Tableau ℚ) (col : ℕ) (θ : ℚ) : ℕ → ℚ :=
  t.complete fun j => if j = col then θ else 0

variable {t : Tableau ℚ}

theorem isBasic_eq_true {j : ℕ} : t.isBasic j = true ↔ ∃ r ∈ t.rows, r.basic = j := by
  simp [isBasic]

theorem isBasic_of_mem {r : BasicRow ℚ} (hr : r ∈ t.rows) : t.isBasic r.basic = true :=
  isBasic_eq_true.mpr ⟨r, hr, rfl⟩

theorem outside_of_not_basic {j : ℕ} (hj : t.isBasic j = false) (y : ℕ → ℚ) :
    t.outside y j = y j := by
  rw [outside, hj]
  rfl

/-! ## Gaps split into the basic variable and the rest -/

/-- The columns of the basis, without the others. -/
private def inside (t : Tableau ℚ) (x : ℕ → ℚ) : ℕ → ℚ :=
  fun j => if t.isBasic j then x j else 0

private theorem gap_eq_outside_add_inside (e : Equation ℚ) (x : ℕ → ℚ) :
    e.gap x = e.gap (t.outside x) + e.lhs (t.inside x) := by
  rw [← Equation.gap_add]
  congr 1
  funext j
  unfold outside inside
  split <;> ring

/-- A row contains its own basic variable once and no other one. -/
theorem gap_eq_outside_add_basic (h : t.Canonical) {r : BasicRow ℚ} (hr : r ∈ t.rows)
    (x : ℕ → ℚ) : r.equation.gap x = r.equation.gap (t.outside x) + x r.basic := by
  have hlhs : r.equation.lhs (t.inside x) = x r.basic := by
    rw [Equation.lhs, dot_eq_sum (le_of_eq (h.width r hr)),
      Finset.sum_eq_single_of_mem r.basic (Finset.mem_range.mpr (h.basic_lt r hr))]
    · rw [← Equation.entry_eq_getD, h.entry_basic hr, one_mul, inside, isBasic_of_mem hr, if_pos rfl]
    · intro j _ hj
      unfold inside
      split
      · next hb =>
        obtain ⟨s, hs, rfl⟩ := isBasic_eq_true.mp hb
        have hne : s ≠ r := fun hsr => hj (by rw [hsr])
        rw [← Equation.entry_eq_getD, h.entry_basic_of_ne hs hr hne, zero_mul]
      · rw [mul_zero]
  rw [gap_eq_outside_add_inside, hlhs]

/-- A priced objective does not contain the basic variables. -/
theorem gap_objective_eq_outside (hp : t.Priced) (x : ℕ → ℚ) :
    t.objective.gap x = t.objective.gap (t.outside x) := by
  have hlhs : t.objective.lhs (t.inside x) = 0 := by
    rw [Equation.lhs, dot]
    refine Finset.sum_eq_zero ?_
    intro j _
    unfold inside
    split
    · next hb =>
      obtain ⟨s, hs, rfl⟩ := isBasic_eq_true.mp hb
      rw [← Equation.entry_eq_getD, hp s hs, zero_mul]
    · rw [mul_zero]
  rw [gap_eq_outside_add_inside, hlhs, add_zero]

/-! ## Completions -/

theorem complete_of_mem (h : t.Canonical) {r : BasicRow ℚ} (hr : r ∈ t.rows) (y : ℕ → ℚ) :
    t.complete y r.basic = -r.equation.gap (t.outside y) := by
  unfold complete
  cases hf : t.rows.find? fun s => s.basic == r.basic with
  | none =>
    have hne := List.find?_eq_none.mp hf r hr
    simp at hne
  | some s =>
    have hs := List.mem_of_find?_eq_some hf
    have hb : s.basic = r.basic := by simpa using List.find?_some hf
    rw [h.eq_of_basic_eq hs hr hb]

theorem complete_of_not_basic {j : ℕ} (hj : t.isBasic j = false) (y : ℕ → ℚ) :
    t.complete y j = y j := by
  have hf : (t.rows.find? fun r => r.basic == j) = none := by
    rw [List.find?_eq_none]
    intro r hr hb
    have hrj : r.basic = j := by simpa using hb
    rw [← hrj, isBasic_of_mem hr] at hj
    exact Bool.noConfusion hj
  unfold complete
  rw [hf]

@[simp]
theorem outside_complete (y : ℕ → ℚ) : t.outside (t.complete y) = t.outside y := by
  funext j
  cases hj : t.isBasic j with
  | true => simp only [outside, hj, if_true]
  | false => rw [outside_of_not_basic hj, outside_of_not_basic hj, complete_of_not_basic hj]

theorem solves_complete (h : t.Canonical) (y : ℕ → ℚ) : t.Solves (t.complete y) := by
  intro r hr
  rw [gap_eq_outside_add_basic h hr, outside_complete, complete_of_mem h hr, add_neg_cancel]

/-- A solution of the rows is determined by its values outside the basis. -/
theorem Solves.eq_complete (h : t.Canonical) {x : ℕ → ℚ} (hx : t.Solves x) : x = t.complete x := by
  funext j
  cases hj : t.isBasic j with
  | true =>
    obtain ⟨r, hr, rfl⟩ := isBasic_eq_true.mp hj
    have h0 := hx r hr
    rw [gap_eq_outside_add_basic h hr] at h0
    rw [complete_of_mem h hr]
    linarith
  | false => rw [complete_of_not_basic hj]

/-! ## The basic solution -/

theorem outside_zero : t.outside (fun _ => 0) = fun _ => 0 := by
  funext j
  unfold outside
  split <;> rfl

theorem basicSolution_of_mem (h : t.Canonical) {r : BasicRow ℚ} (hr : r ∈ t.rows) :
    t.basicSolution r.basic = r.equation.rhs := by
  rw [basicSolution, complete_of_mem h hr, outside_zero, Equation.gap, Equation.lhs]
  simp [dot]

theorem basicSolution_of_not_basic {j : ℕ} (hj : t.isBasic j = false) : t.basicSolution j = 0 :=
  complete_of_not_basic hj _

theorem solves_basicSolution (h : t.Canonical) : t.Solves t.basicSolution :=
  solves_complete h _

/-- The basic solution keeps a lower bound that is not positive exactly when the right-hand sides do. -/
theorem le_basicSolution_iff (h : t.Canonical) {c : ℚ} (hc : c ≤ 0) :
    (∀ j, c ≤ t.basicSolution j) ↔ ∀ r ∈ t.rows, c ≤ r.equation.rhs := by
  constructor
  · intro hle r hr
    rw [← basicSolution_of_mem h hr]
    exact hle r.basic
  · intro hle j
    cases hj : t.isBasic j with
    | true =>
      obtain ⟨r, hr, rfl⟩ := isBasic_eq_true.mp hj
      rw [basicSolution_of_mem h hr]
      exact hle r hr
    | false => rwa [basicSolution_of_not_basic hj]

/-- A basic solution without negative right-hand sides is not negative. -/
theorem basicSolution_nonneg (h : t.Canonical) (hf : t.Feasible) : ∀ j, 0 ≤ t.basicSolution j :=
  (le_basicSolution_iff h le_rfl).mpr hf

/-- At the basic solution the objective has the value of its right-hand side, negated. -/
theorem gap_objective_basicSolution (hp : t.Priced) :
    t.objective.gap t.basicSolution = -t.objective.rhs := by
  rw [gap_objective_eq_outside hp, basicSolution, outside_complete, outside_zero, Equation.gap,
    Equation.lhs]
  simp [dot]

/-- Writing values into distinct places of a list: a place has the value last written there. -/
private theorem getD_foldl_set (rs : List (BasicRow ℚ)) (values : List ℚ) {j : ℕ}
    (hn : (rs.map BasicRow.basic).Nodup) (hj : j < values.length) :
    (rs.foldl (fun values r => values.set r.basic r.equation.rhs) values).getD j 0 =
      match rs.find? fun r => r.basic == j with
      | some r => r.equation.rhs
      | none => values.getD j 0 := by
  induction rs generalizing values with
  | nil => rfl
  | cons r rs ih =>
    rw [List.map_cons, List.nodup_cons] at hn
    rw [List.foldl_cons, ih _ hn.2 (by rwa [List.length_set])]
    by_cases hb : r.basic = j
    · -- the value that this row sets is not set again
      have hnone : (rs.find? fun s => s.basic == j) = none := by
        rw [List.find?_eq_none]
        intro s hs hsj
        refine hn.1 (List.mem_map.mpr ⟨s, hs, ?_⟩)
        rw [hb]
        simpa using hsj
      rw [hnone, List.find?_cons_of_pos (by simpa using hb)]
      subst hb
      simp only [getD_set values hj, if_true]
    · rw [List.find?_cons_of_neg (by simpa using hb)]
      cases rs.find? fun s => s.basic == j with
      | some s => rfl
      | none => simp only [List.getD_eq_getElem?_getD, List.getElem?_set_ne hb]

/-- The values of the program's variables are read off the rows. -/
theorem getD_point (h : t.Canonical) {j : ℕ} (hj : j < t.numVariables) :
    t.point.getD j 0 = t.basicSolution j := by
  rw [point]
  refine (getD_foldl_set t.rows _ h.nodup_basic (by simpa using hj)).trans ?_
  cases hf : t.rows.find? fun r => r.basic == j with
  | some r =>
    have hb : r.basic = j := by simpa using List.find?_some hf
    rw [← hb, basicSolution_of_mem h (List.mem_of_find?_eq_some hf)]
  | none =>
    have hnb : t.isBasic j = false := by
      rw [← Bool.not_eq_true, isBasic_eq_true]
      rintro ⟨r, hr, hb⟩
      simpa [hb] using List.find?_eq_none.mp hf r hr
    rw [basicSolution_of_not_basic hnb]
    exact getD_replicate_zero _ _

/-! ## Edges -/

theorem solves_edge (h : t.Canonical) (col : ℕ) (θ : ℚ) : t.Solves (t.edge col θ) :=
  solves_complete h _

section Edge

variable {col : ℕ} (hcol : t.isBasic col = false)
include hcol

theorem outside_edge (θ : ℚ) : t.outside (t.edge col θ) = fun j => if j = col then θ else 0 := by
  rw [edge, outside_complete]
  funext j
  by_cases hj : j = col
  · rw [hj, outside_of_not_basic hcol]
  · simp [outside, hj]

/-- Along the edge a basic variable changes by its row's coefficient in the entering column. -/
theorem edge_of_mem (h : t.Canonical) {r : BasicRow ℚ} (hr : r ∈ t.rows) (θ : ℚ) :
    t.edge col θ r.basic = r.equation.rhs - r.equation.entry col * θ := by
  have hlhs : r.equation.lhs (t.outside (t.edge col θ)) = r.equation.entry col * θ := by
    rw [outside_edge hcol, Equation.lhs_single]
  rw [edge, complete_of_mem h hr, ← outside_complete, ← edge, Equation.gap, hlhs]
  ring

/-- Where no row has a positive coefficient in the column, the whole edge stays non-negative. -/
theorem edge_nonneg (h : t.Canonical) (hf : t.Feasible)
    (hle : ∀ r ∈ t.rows, r.equation.entry col ≤ 0) {θ : ℚ} (hθ : 0 ≤ θ) (j : ℕ) :
    0 ≤ t.edge col θ j := by
  cases hj : t.isBasic j with
  | true =>
    obtain ⟨r, hr, rfl⟩ := isBasic_eq_true.mp hj
    rw [edge_of_mem hcol h hr]
    have h1 := hf r hr
    have h2 := mul_nonpos_of_nonpos_of_nonneg (hle r hr) hθ
    linarith
  | false =>
    rw [edge, complete_of_not_basic hj]
    split
    · exact hθ
    · exact le_rfl

/-- Along the edge the objective grows by the reduced cost of the column. -/
theorem gap_objective_edge (hp : t.Priced) (θ : ℚ) :
    t.objective.gap (t.edge col θ) = t.objective.entry col * θ - t.objective.rhs := by
  rw [gap_objective_eq_outside hp, outside_edge hcol, Equation.gap, Equation.lhs_single]

end Edge

end LinearProgram.Tableau
