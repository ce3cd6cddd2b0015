import Mathlib
import LinearProgram.Proofs.Simplex.Stages

/-!
# What pivots without a tolerance achieve

Without a tolerance every pivot of a phase improves the objective at the basic solution, unless its row
has right-hand side zero: then it changes the basis only and keeps the basic solution. The right-hand
side of the objective is the value at the basic solution, negated, so that it never grows along a
sequence of stages.
-/

namespace LinearProgram.Tableau

variable {t t' : Tableau ℚ} {row col : ℕ} {r : BasicRow ℚ}

/-! ## Bases -/

/-- The basic solution is the only one that is zero outside the basis. -/
theorem Canonical.eq_basicSolution (h : t.Canonical) {x : ℕ → ℚ} (hx : t.Solves x)
    (h0 : ∀ j, t.isBasic j = false → x j = 0) : x = t.basicSolution := by
  have hout : t.outside x = t.outside fun _ => 0 := by
    funext j
    cases hj : t.isBasic j with
    | true => simp only [outside, hj, if_true]
    | false => rw [outside_of_not_basic hj, outside_of_not_basic hj, h0 j hj]
  rw [hx.eq_complete h]
  funext j
  cases hj : t.isBasic j with
  | true =>
    obtain ⟨s, hs, rfl⟩ := isBasic_eq_true.mp hj
    rw [basicSolution, complete_of_mem h hs, complete_of_mem h hs, hout]
  | false => rw [complete_of_not_basic hj, basicSolution_of_not_basic hj, h0 j hj]

/-- Equivalent tableaux with the same basis have the same basic solution. -/
theorem Equivalent.basicSolution_eq (he : Equivalent t t') (h : t.Canonical) (h' : t'.Canonical)
    (hb : t'.isBasic = t.isBasic) : t'.basicSolution = t.basicSolution :=
  h.eq_basicSolution ((he.solves_iff _).mp (solves_basicSolution h'))
    fun _ hj => basicSolution_of_not_basic (by rw [hb, hj])

/-- A pivot puts its column into the basis and takes the basic variable of its row out. -/
theorem Canonical.isBasic_pivot (h : t.Canonical) (hr : t.rows[row]? = some r) (j : ℕ) :
    (t.pivot row col).isBasic j = true ↔ j = col ∨ t.isBasic j = true ∧ j ≠ r.basic := by
  rw [isBasic_eq_true, isBasic_eq_true]
  constructor
  · rintro ⟨s', hs', rfl⟩
    obtain ⟨k, s, hs, rfl⟩ := mem_rows_pivot hr hs'
    unfold pivoted
    split
    · exact .inl rfl
    · next hk =>
      exact .inr ⟨⟨s, List.mem_of_getElem? hs, rfl⟩, fun hb => hk (h.index_eq_of_basic_eq hs hr hb)⟩
  · have hmem {k : ℕ} {s : BasicRow ℚ} (hs : t.rows[k]? = some s) :
        pivoted col row r k s ∈ (t.pivot row col).rows :=
      List.mem_iff_getElem?.mpr ⟨k, by rw [getElem?_rows_pivot hr, hs, Option.map_some]⟩
    rintro (rfl | ⟨⟨s, hs, rfl⟩, hne⟩)
    · exact ⟨_, hmem hr, by rw [pivoted, if_pos rfl]⟩
    · obtain ⟨k, hk⟩ := List.mem_iff_getElem?.mp hs
      refine ⟨_, hmem hk, ?_⟩
      rw [pivoted, if_neg]
      rintro rfl
      exact hne (by rw [Option.some.inj (hk.symm.trans hr)])

/-! ## The objective -/

theorem rhs_objective_pivot (hr : t.rows[row]? = some r) : (t.pivot row col).objective.rhs =
    t.objective.rhs - t.objective.entry col * ratio col r := by
  rw [objective_pivot hr, Equation.rhs_eliminate, Equation.rhs_divide, ratio]

/-- Without a tolerance a pivot is degenerate when its row has right-hand side zero. -/
theorem isDegenerate_iff (hr : t.rows[row]? = some r) :
    Simplex.isDegenerate 0 t row = true ↔ r.equation.rhs = 0 := by
  rw [Simplex.isDegenerate, hr, Option.any_some, Scalar.le_rat, Scalar.abs_rat, abs_nonpos_iff]

/-- A pivot on a row whose right-hand side is zero keeps the basic solution. -/
theorem Canonical.basicSolution_pivot (h : t.Canonical) (hr : t.rows[row]? = some r)
    (hp : r.equation.entry col ≠ 0) (h0 : r.equation.rhs = 0) :
    (t.pivot row col).basicSolution = t.basicSolution := by
  symm
  refine (h.pivot hr hp).eq_basicSolution ((solves_pivot h hr hp _).mpr (solves_basicSolution h)) ?_
  intro j hj
  -- the only variable that has left the basis was zero
  rw [← Bool.not_eq_true, h.isBasic_pivot hr, not_or, not_and_not_right] at hj
  cases hb : t.isBasic j with
  | true => rw [hj.2 hb, basicSolution_of_mem h (List.mem_of_getElem? hr), h0]
  | false => exact basicSolution_of_not_basic hb

end LinearProgram.Tableau

namespace LinearProgram.Simplex.Stage

open Tableau

variable {eligible : ℕ}

/-! ## One pivot -/

/-- From one stage to the next: `col` and `row` are what the two searches find, and `r` is the row. -/
structure Moves (eligible col row : ℕ) (r : BasicRow ℚ) (g g' : Stage ℚ) : Prop where
  entering : g.tableau.entering? 0 eligible g.lowestIndex = some col
  leaving : g.tableau.leaving? 0 col = some row
  getElem? : g.tableau.rows[row]? = some r
  pos : 0 < r.equation.entry col
  lowestIndex : g'.lowestIndex = isDegenerate 0 g.tableau row
  tableau : g'.tableau = g.tableau.pivot row col

theorem exists_moves {g : Stage ℚ} (h : (g.pivot? 0 eligible).isSome = true) :
    ∃ col row r, Moves eligible col row r g ((g.pivot? 0 eligible).getD g) := by
  cases hcol : g.tableau.entering? 0 eligible g.lowestIndex with
  | none =>
    rw [pivot?_eq_none_of_entering? hcol] at h
    exact absurd h Bool.false_ne_true
  | some col =>
    cases hrow : g.tableau.leaving? 0 col with
    | none => simp [pivot?, hcol, hrow] at h
    | some row =>
      obtain ⟨r, hr, hpos, -⟩ := competes_of_leaving?_eq_some hrow
      rw [pivot?_eq_some hcol hrow]
      exact ⟨col, row, r, hcol, hrow, hr, hpos, rfl, rfl⟩

namespace Moves

variable {col row : ℕ} {r : BasicRow ℚ} {g g' : Stage ℚ} (h : Moves eligible col row r g g')
include h

theorem mem : r ∈ g.tableau.rows :=
  List.mem_of_getElem? h.getElem?

theorem cost_pos : 0 < g.tableau.objective.entry col :=
  (lt_entry_of_entering?_eq_some h.entering).2

theorem primal (hg : g.tableau.Primal) : g'.tableau.Primal := by
  rw [h.tableau]
  exact hg.pivot h.leaving

theorem equivalent (hg : g.tableau.Primal) : Equivalent g.tableau g'.tableau := by
  rw [h.tableau]
  exact hg.toCanonical.equivalent_pivot h.getElem? h.pos.ne'

theorem isBasic_iff (hg : g.tableau.Primal) (j : ℕ) :
    g'.tableau.isBasic j = true ↔ j = col ∨ g.tableau.isBasic j = true ∧ j ≠ r.basic := by
  rw [h.tableau]
  exact hg.toCanonical.isBasic_pivot h.getElem? j

theorem lowestIndex_iff : g'.lowestIndex = true ↔ r.equation.rhs = 0 := by
  rw [h.lowestIndex]
  exact isDegenerate_iff h.getElem?

theorem rhs_objective : g'.tableau.objective.rhs =
    g.tableau.objective.rhs - g.tableau.objective.entry col * ratio col r := by
  rw [h.tableau]
  exact rhs_objective_pivot h.getElem?

theorem rhs_objective_le (hg : g.tableau.Primal) :
    g'.tableau.objective.rhs ≤ g.tableau.objective.rhs := by
  have hratio : 0 ≤ ratio col r := div_nonneg (hg.feasible r h.mem) h.pos.le
  rw [h.rhs_objective]
  exact sub_le_self _ (mul_nonneg h.cost_pos.le hratio)

/-- A pivot that does not improve the objective is degenerate. -/
theorem rhs_eq_zero (hrhs : g'.tableau.objective.rhs = g.tableau.objective.rhs) :
    r.equation.rhs = 0 := by
  rw [h.rhs_objective, sub_eq_self, mul_eq_zero, ratio, div_eq_zero_iff] at hrhs
  exact (hrhs.resolve_left h.cost_pos.ne').resolve_right h.pos.ne'

theorem basicSolution_eq (hg : g.tableau.Primal) (h0 : r.equation.rhs = 0) :
    g'.tableau.basicSolution = g.tableau.basicSolution := by
  rw [h.tableau]
  exact hg.toCanonical.basicSolution_pivot h.getElem? h.pos.ne' h0

end Moves

/-! ## Sequences of pivots -/

/-- What every possible pivot keeps holds at every stage. -/
theorem after_induction {P : Stage ℚ → Prop} {g : Stage ℚ} (h : P g)
    (hstep : ∀ g g' col row r, P g → Moves eligible col row r g g' → P g') (k : ℕ) :
    P (g.after 0 eligible k) := by
  induction k with
  | zero => exact h
  | succ k ih =>
    rw [after_succ_eq]
    cases hnext : (g.after 0 eligible k).pivot? 0 eligible with
    | none => exact ih
    | some g' =>
      obtain ⟨col, row, r, hmove⟩ := exists_moves (by rw [hnext, Option.isSome_some])
      rw [hnext] at hmove
      exact hstep _ _ col row r ih hmove

variable {g : Stage ℚ} (h : g.tableau.Primal)
include h

theorem primal_after (eligible k : ℕ) : (g.after 0 eligible k).tableau.Primal :=
  after_induction (P := fun g => g.tableau.Primal) h (fun _ _ _ _ _ hg hmove => hmove.primal hg) k

theorem equivalent_after (eligible k : ℕ) : Equivalent g.tableau (g.after 0 eligible k).tableau :=
  (after_induction (P := fun g' => g'.tableau.Primal ∧ Equivalent g.tableau g'.tableau)
    ⟨h, Equivalent.refl _⟩
    (fun _ _ _ _ _ hg hmove => ⟨hmove.primal hg.1, hg.2.trans (hmove.equivalent hg.1)⟩) k).2

/-- The objective at the basic solution never gets worse. -/
theorem rhs_objective_after_le {i k : ℕ} (hik : i ≤ k) :
    (g.after 0 eligible k).tableau.objective.rhs ≤ (g.after 0 eligible i).tableau.objective.rhs := by
  obtain ⟨n, rfl⟩ := Nat.exists_eq_add_of_le hik
  rw [after_add]
  exact (after_induction
    (P := fun g' => g'.tableau.Primal ∧ g'.tableau.objective.rhs ≤
      (g.after 0 eligible i).tableau.objective.rhs)
    ⟨primal_after h eligible i, le_rfl⟩
    (fun _ _ _ _ _ hg hmove =>
      ⟨hmove.primal hg.1, (hmove.rhs_objective_le hg.1).trans hg.2⟩) n).2

end LinearProgram.Simplex.Stage
