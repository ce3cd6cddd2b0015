import Mathlib
import LinearProgram.Proofs.Simplex.Stages
import LinearProgram.Proofs.Simplex.Exact

/-!
# Runs that the tolerance does not touch

All a tolerance does is to take numbers for equal that are not. While every two numbers that a run
compares are equal or further apart than the tolerance, the run makes the choices of the run without one,
so that it comes to the same verdict (`Sharp.verdict_run`), and what is proved of exact runs holds of it.
-/

namespace LinearProgram.Tableau

variable {t : Tableau ℚ} {tolerance : ℚ}

/-- Where the costs of the basic variables are apart from zero, they are priced out as without a
tolerance. -/
theorem Canonical.price_eq (h : t.Canonical) {objective : Equation ℚ}
    (hw : objective.coefficients.length = t.numColumns) (h0 : 0 ≤ tolerance)
    (hcosts : ∀ r ∈ t.rows, Apart tolerance (objective.entry r.basic) 0) :
    t.price tolerance objective = t.price 0 objective := by
  have hfold (rs : List (BasicRow ℚ)) (objective : Equation ℚ)
      (hw : ∀ r ∈ rs, r.equation.coefficients.length = objective.coefficients.length)
      (hpair : rs.Pairwise fun r s => s.equation.entry r.basic = 0 ∧ r.equation.entry s.basic = 0)
      (hcosts : ∀ r ∈ rs, Apart tolerance (objective.entry r.basic) 0) :
      rs.foldl (clear tolerance) objective = rs.foldl (clear 0) objective := by
    induction rs generalizing objective with
    | nil => rfl
    | cons r rs ih =>
      rw [List.pairwise_cons] at hpair
      have hr := hw r List.mem_cons_self
      have hclear : clear tolerance objective r = clear 0 objective r := by
        unfold clear
        refine if_congr ?_ rfl rfl
        rw [Scalar.lt_rat, Scalar.lt_rat, Scalar.abs_rat, ← not_le, ← not_le,
          (hcosts r List.mem_cons_self).abs_le_iff h0]
      rw [List.foldl_cons, List.foldl_cons, hclear]
      refine ih _ (fun s hs => (hw s (List.mem_cons_of_mem _ hs)).trans (length_clear hr).symm) hpair.2 ?_
      -- what has been priced out so far does not touch the costs of the later rows
      intro s hs
      rw [entry_clear_of_eq_zero hr (hpair.1 s hs).2]
      exact hcosts s (List.mem_cons_of_mem _ hs)
  exact hfold t.rows objective (fun r hr => (h.width r hr).trans hw.symm) h.pairwise hcosts

theorem artificialsVanish_eq (h0 : 0 ≤ tolerance) (hrhs : ∀ r ∈ t.rows, Apart tolerance r.equation.rhs 0) :
    t.artificialsVanish tolerance = t.artificialsVanish 0 := by
  rw [Bool.eq_iff_iff, artificialsVanish, artificialsVanish, List.all_eq_true, List.all_eq_true]
  refine forall₂_congr fun r hr => ?_
  rw [Scalar.le_rat, Scalar.le_rat, Scalar.abs_rat,
    (hrhs r (List.mem_filter.mp hr).1).abs_le_iff h0]

theorem replacement?_eq (h0 : 0 ≤ tolerance) {e : Equation ℚ}
    (h : ∀ a ∈ e.coefficients.take t.firstArtificial, Apart tolerance a 0) :
    t.replacement? tolerance e = t.replacement? 0 e := by
  unfold replacement?
  generalize e.coefficients.take t.firstArtificial = as at h
  induction as with
  | nil => rfl
  | cons a as ih =>
    have ha : Scalar.lt tolerance (Scalar.abs a) = Scalar.lt 0 (Scalar.abs a) := by
      rw [Bool.eq_iff_iff, Scalar.lt_rat, Scalar.lt_rat, Scalar.abs_rat, ← not_le, ← not_le,
        (h a List.mem_cons_self).abs_le_iff h0]
    rw [List.findIdx?_cons, List.findIdx?_cons, ha, ih fun b hb => h b (List.mem_cons_of_mem _ hb)]

end LinearProgram.Tableau

namespace LinearProgram.Simplex

open Tableau

variable {tolerance : ℚ} {eligible : ℕ}

/-! ## Phases -/

/-- The numbers that are compared to go on from a stage without a tolerance are equal or apart: eligible
costs and right-hand sides with zero, and in the entering column the coefficients with zero and the
ratios with each other. -/
structure Stage.Sharp (tolerance : ℚ) (eligible : ℕ) (g : Stage ℚ) : Prop where
  costs : ∀ c ∈ g.tableau.objective.coefficients.take eligible, Apart tolerance c 0
  rhs : ∀ r ∈ g.tableau.rows, Apart tolerance r.equation.rhs 0
  coefficients : ∀ col ∈ g.tableau.entering? 0 eligible g.lowestIndex, ∀ r ∈ g.tableau.rows,
    Apart tolerance (r.equation.entry col) 0
  ratios : ∀ col ∈ g.tableau.entering? 0 eligible g.lowestIndex, ∀ r ∈ g.tableau.rows,
    ∀ s ∈ g.tableau.rows, Competes 0 col r → Competes 0 col s →
      Apart tolerance (ratio col r) (ratio col s)

instance {g : Stage ℚ} : Decidable (g.Sharp tolerance eligible) :=
  decidable_of_iff (_ ∧ _ ∧ _ ∧ _)
    ⟨fun h => ⟨h.1, h.2.1, h.2.2.1, h.2.2.2⟩, fun h => ⟨h.costs, h.rhs, h.coefficients, h.ratios⟩⟩

section Stage

variable {g : Stage ℚ} (h : g.Sharp tolerance eligible) (h0 : 0 ≤ tolerance)
include h h0

theorem Stage.Sharp.entering?_eq : g.tableau.entering? tolerance eligible g.lowestIndex =
    g.tableau.entering? 0 eligible g.lowestIndex :=
  Tableau.entering?_eq h0 h.costs _

theorem Stage.Sharp.leaving?_eq {col : ℕ}
    (hcol : g.tableau.entering? 0 eligible g.lowestIndex = some col) :
    g.tableau.leaving? tolerance col = g.tableau.leaving? 0 col :=
  Tableau.leaving?_eq h0 (h.coefficients col hcol) (h.ratios col hcol)

theorem Stage.Sharp.isDegenerate_eq (row : ℕ) :
    isDegenerate tolerance g.tableau row = isDegenerate 0 g.tableau row := by
  unfold isDegenerate
  cases hr : g.tableau.rows[row]? with
  | none => rfl
  | some r =>
    rw [Option.any_some, Option.any_some, Bool.eq_iff_iff, Scalar.le_rat, Scalar.le_rat,
      Scalar.abs_rat, (h.rhs r (List.mem_of_getElem? hr)).abs_le_iff h0]

end Stage

/-- A phase that passes through sharp stages only is the phase without the tolerance. -/
theorem climb_eq_of_sharp (h0 : 0 ≤ tolerance) (expired : ℕ → Bool) (left made : ℕ) (g : Stage ℚ)
    (h : ∀ k ≤ (climb 0 eligible expired left made g.lowestIndex g.tableau).pivots,
      (g.after 0 eligible k).Sharp tolerance eligible) :
    climb tolerance eligible expired left made g.lowestIndex g.tableau =
      climb 0 eligible expired left made g.lowestIndex g.tableau := by
  induction left generalizing made g with
  | zero =>
    have hfirst : g.Sharp tolerance eligible := h 0 (Nat.zero_le _)
    cases hcol : g.tableau.entering? 0 eligible g.lowestIndex with
    | none => rw [climb_converged hcol, climb_converged ((hfirst.entering?_eq h0).trans hcol)]
    | some col => rw [climb_pivotLimit hcol, climb_pivotLimit ((hfirst.entering?_eq h0).trans hcol)]
  | succ left ih =>
    have hfirst : g.Sharp tolerance eligible := h 0 (Nat.zero_le _)
    cases hcol : g.tableau.entering? 0 eligible g.lowestIndex with
    | none => rw [climb_converged hcol, climb_converged ((hfirst.entering?_eq h0).trans hcol)]
    | some col =>
      have hcol' := (hfirst.entering?_eq h0).trans hcol
      cases hexp : expired made with
      | true => rw [climb_timeLimit hcol hexp, climb_timeLimit hcol' hexp]
      | false =>
        cases hrow : g.tableau.leaving? 0 col with
        | none =>
          rw [climb_unbounded hcol hexp hrow,
            climb_unbounded hcol' hexp ((hfirst.leaving?_eq h0 hcol).trans hrow)]
        | some row =>
          have hrow' := (hfirst.leaving?_eq h0 hcol).trans hrow
          rw [climb_pivot hcol hexp hrow] at h ⊢
          rw [climb_pivot hcol' hexp hrow', hfirst.isDegenerate_eq h0]
          have hrest := ih (made + 1) ⟨isDegenerate 0 g.tableau row, g.tableau.pivot row col⟩ ?_
          · simp only at hrest
            simp only [hrest]
          · intro k hk
            have hnext := h (k + 1) ((Nat.succ_le_succ hk).trans_eq (Climb.pivots_cons rfl _).symm)
            rwa [Stage.after_succ, Stage.pivot?_eq_some hcol hrow, Option.getD_some] at hnext

/-! ## The walk between the phases -/

/-- The coefficients that the walk through the first `count` rows compares with zero. -/
def compared {K : Type} [Scalar K] (tolerance : K) : (count : ℕ) → Tableau K → List K
  | 0, _ => []
  | row + 1, t =>
    match t.rows[row]? with
    | none => compared tolerance row t
    | some r =>
      if !t.isArtificial r then compared tolerance row t
      else r.equation.coefficients.take t.firstArtificial ++
        match t.replacement? tolerance r.equation with
        | some col => compared tolerance row (t.pivot row col)
        | none => compared tolerance row (t.drop row)

theorem expelArtificials_eq (h0 : 0 ≤ tolerance) (count : ℕ) (t : Tableau ℚ)
    (h : ∀ a ∈ compared 0 count t, Apart tolerance a 0) :
    expelArtificials tolerance count t = expelArtificials 0 count t := by
  induction count generalizing t with
  | zero => rfl
  | succ row ih =>
    unfold compared at h
    unfold expelArtificials
    cases hr : t.rows[row]? with
    | none =>
      rw [hr] at h
      exact ih t h
    | some r =>
      simp only [hr] at h ⊢
      by_cases ha : (!t.isArtificial r) = true
      · rw [if_pos ha] at h
        rw [if_pos ha, if_pos ha]
        exact ih t h
      · rw [if_neg ha, List.forall_mem_append] at h
        rw [if_neg ha, if_neg ha, replacement?_eq h0 h.1]
        cases hcol : t.replacement? 0 r.equation with
        | none => simp only [ih _ (hcol ▸ h.2)]
        | some col => simp only [ih _ (hcol ▸ h.2)]

/-! ## Runs -/

/-- The numbers that a run without a tolerance compares are equal or apart: in the first phase, if there
is one; when the program's objective is priced out and the walk clears the basis; and in the second. -/
structure Sharp (tolerance : ℚ) (maxPivots : ℕ) (deadline : Deadline) (p : DenseProgram ℚ) : Prop where
  first : (ofProgram p).numArtificial ≠ 0 → ∀ k ≤ (ascent (.exact maxPivots) deadline p).pivots,
    ((firstStage p).after 0 (ofProgram p).numColumns k).Sharp tolerance (ofProgram p).numColumns
  prices : (ofProgram p).numArtificial ≠ 0 → ∀ r ∈ (ascent (.exact maxPivots) deadline p).tableau.rows,
    Apart tolerance ((ofProgram p).objective.entry r.basic) 0
  walk : (ofProgram p).numArtificial ≠ 0 →
    ∀ a ∈ compared 0 (ascent (.exact maxPivots) deadline p).tableau.rows.length
      { (ascent (.exact maxPivots) deadline p).tableau with
        objective := (ascent (.exact maxPivots) deadline p).tableau.price 0 (ofProgram p).objective },
      Apart tolerance a 0
  second : Reaches (.exact maxPivots) deadline p → ∀ k ≤ (summit (.exact maxPivots) deadline p).pivots,
    ((secondStage (.exact maxPivots) deadline p).after 0
        (ready (.exact maxPivots) deadline p).firstArtificial k).Sharp tolerance
      (ready (.exact maxPivots) deadline p).firstArtificial

namespace Sharp

variable {maxPivots : ℕ} {deadline : Deadline} {p : DenseProgram ℚ}
  (h : Sharp tolerance maxPivots deadline p) (h0 : 0 ≤ tolerance)
include h h0

/-- A sharp run has the first phase of the run without the tolerance. -/
theorem ascent_eq (hart : (ofProgram p).numArtificial ≠ 0) :
    ascent ⟨maxPivots, tolerance⟩ deadline p = ascent (.exact maxPivots) deadline p :=
  climb_eq_of_sharp h0 (deadline .first) maxPivots 0 (firstStage p) (h.first hart)

/-- It comes to its second phase when that one does. -/
theorem reaches_iff :
    Reaches ⟨maxPivots, tolerance⟩ deadline p ↔ Reaches (.exact maxPivots) deadline p := by
  refine or_congr_right' fun hart => ?_
  have hrhs : ∀ r ∈ (ascent (.exact maxPivots) deadline p).tableau.rows,
      Apart tolerance r.equation.rhs 0 := by
    rw [(course_ascent (.exact maxPivots) deadline p).tableau]
    exact (h.first hart _ le_rfl).rhs
  rw [h.ascent_eq h0 hart, artificialsVanish_eq h0 hrhs]
  exact Iff.rfl

/-- It hands over the same tableau. -/
theorem ready_eq (hp : p.Rectangular) :
    ready ⟨maxPivots, tolerance⟩ deadline p = ready (.exact maxPivots) deadline p := by
  unfold ready
  by_cases hart : (ofProgram p).numArtificial = 0
  · rw [if_pos hart, if_pos hart]
  · obtain ⟨hprimal, heq⟩ := primal_ascent hp maxPivots deadline
    have hw : (ofProgram p).objective.coefficients.length =
        (ascent (.exact maxPivots) deadline p).tableau.numColumns :=
      (shaped_ofProgram hp).width_objective.trans heq.numColumns.symm
    rw [if_neg hart, if_neg hart, h.ascent_eq h0 hart, handOver,
      hprimal.toCanonical.price_eq hw h0 (h.prices hart), expelArtificials_eq h0 _ _ (h.walk hart)]
    rfl

theorem summit_eq (hp : p.Rectangular) (hreach : Reaches (.exact maxPivots) deadline p) :
    summit ⟨maxPivots, tolerance⟩ deadline p = summit (.exact maxPivots) deadline p := by
  unfold summit
  rw [h.ready_eq h0 hp]
  exact climb_eq_of_sharp h0 (deadline .second) maxPivots 0 (secondStage (.exact maxPivots) deadline p)
    (h.second hreach)

/-- **A sharp run is exact.** Its verdict is that of the run without the tolerance. -/
theorem verdict_run (hp : p.Rectangular) : (run ⟨maxPivots, tolerance⟩ deadline p).verdict =
    (run (.exact maxPivots) deadline p).verdict := by
  by_cases hreach : Reaches (.exact maxPivots) deadline p
  · rw [verdict_of_reaches hreach, verdict_of_reaches ((h.reaches_iff h0).mpr hreach),
      h.summit_eq h0 hp hreach]
  · have hart : (ofProgram p).numArtificial ≠ 0 := fun hart => hreach (.inl hart)
    rw [verdict_of_not_reaches hreach, verdict_of_not_reaches (mt (h.reaches_iff h0).mp hreach),
      h.ascent_eq h0 hart]

end Sharp

end LinearProgram.Simplex
