import Mathlib
import LinearProgram.Proofs.Simplex.Climb

/-!
# Pricing out the basis

Both phases start from an objective in which the basic variables do not occur. The first phase builds
its own, the negated sum of the artificial variables, and adds the rows of the artificial ones; the
second takes the program's objective back and subtracts each row as often as its basic variable occurs.
Either way the objective keeps its value on the solutions of the rows.
-/

namespace LinearProgram.Tableau

variable {t : Tableau ℚ}

/-- In a canonical tableau no row contains the basic variable of another. -/
theorem Canonical.pairwise (h : t.Canonical) : t.rows.Pairwise fun r s =>
    s.equation.entry r.basic = 0 ∧ r.equation.entry s.basic = 0 := by
  rw [List.pairwise_iff_getElem]
  intro i k hi hk hik
  have hri := List.getElem?_eq_getElem hi
  have hrk := List.getElem?_eq_getElem hk
  exact ⟨(h.unit hri hrk).trans (if_neg hik.ne'), (h.unit hrk hri).trans (if_neg hik.ne)⟩

/-! ## The objective of the second phase -/

/-- One row of pricing out. -/
def clear (tolerance : ℚ) (objective : Equation ℚ) (r : BasicRow ℚ) : Equation ℚ :=
  if Scalar.lt tolerance (Scalar.abs (objective.entry r.basic)) then
    objective.subtract (objective.entry r.basic) r.equation
  else objective

theorem price_eq_foldl (tolerance : ℚ) (objective : Equation ℚ) :
    t.price tolerance objective = t.rows.foldl (clear tolerance) objective :=
  rfl

section Clear

variable {tolerance : ℚ} {objective : Equation ℚ} {r : BasicRow ℚ}

theorem length_clear (hw : r.equation.coefficients.length = objective.coefficients.length) :
    (clear tolerance objective r).coefficients.length = objective.coefficients.length := by
  unfold clear
  split
  · exact Equation.length_subtract hw _
  · rfl

theorem gap_clear (hw : r.equation.coefficients.length = objective.coefficients.length) {x : ℕ → ℚ}
    (hx : r.equation.gap x = 0) : (clear tolerance objective r).gap x = objective.gap x := by
  unfold clear
  split
  · rw [Equation.gap_subtract hw, hx, mul_zero, sub_zero]
  · rfl

/-- A column that the row does not have keeps its cost. -/
theorem entry_clear_of_eq_zero (hw : r.equation.coefficients.length = objective.coefficients.length)
    {j : ℕ} (hj : r.equation.entry j = 0) :
    (clear tolerance objective r).entry j = objective.entry j := by
  unfold clear
  split
  · rw [Equation.entry_subtract hw, hj, mul_zero, sub_zero]
  · rfl

theorem entry_clear_basic (hw : r.equation.coefficients.length = objective.coefficients.length)
    (hr : r.equation.entry r.basic = 1) : (clear 0 objective r).entry r.basic = 0 := by
  unfold clear
  split
  · rw [Equation.entry_subtract hw, hr, mul_one, sub_self]
  · next h =>
    rw [Scalar.lt_rat, Scalar.abs_rat, abs_pos, not_not] at h
    exact h

/-- Rows of the objective's width that hold do not change its value. -/
theorem foldl_clear (rs : List (BasicRow ℚ))
    (hw : ∀ r ∈ rs, r.equation.coefficients.length = objective.coefficients.length) :
    (rs.foldl (clear tolerance) objective).coefficients.length = objective.coefficients.length ∧
      ∀ x, (∀ r ∈ rs, r.equation.gap x = 0) →
        (rs.foldl (clear tolerance) objective).gap x = objective.gap x := by
  induction rs generalizing objective with
  | nil => exact ⟨rfl, fun _ _ => rfl⟩
  | cons r rs ih =>
    have hr := hw r List.mem_cons_self
    have hlen := (length_clear hr : (clear tolerance objective r).coefficients.length = _)
    obtain ⟨hlen', hgap⟩ := ih fun s hs => (hw s (List.mem_cons_of_mem _ hs)).trans hlen.symm
    refine ⟨hlen'.trans hlen, ?_⟩
    intro x hx
    rw [List.foldl_cons, hgap x fun s hs => hx s (List.mem_cons_of_mem _ hs),
      gap_clear hr (hx r List.mem_cons_self)]

/-- Each row clears its own basic variable, and the later rows do not bring it back. -/
theorem entry_foldl_clear (rs : List (BasicRow ℚ))
    (hw : ∀ r ∈ rs, r.equation.coefficients.length = objective.coefficients.length)
    (hone : ∀ r ∈ rs, r.equation.entry r.basic = 1)
    (hpair : rs.Pairwise fun r s => s.equation.entry r.basic = 0 ∧ r.equation.entry s.basic = 0) :
    (∀ j, (∀ r ∈ rs, r.equation.entry j = 0) →
        (rs.foldl (clear 0) objective).entry j = objective.entry j) ∧
      ∀ r ∈ rs, (rs.foldl (clear 0) objective).entry r.basic = 0 := by
  induction rs generalizing objective with
  | nil => exact ⟨fun _ _ => rfl, by simp⟩
  | cons r rs ih =>
    rw [List.pairwise_cons] at hpair
    have hr := hw r List.mem_cons_self
    obtain ⟨hkeep, hzero⟩ := @ih (clear 0 objective r)
      (fun s hs => (hw s (List.mem_cons_of_mem _ hs)).trans (length_clear hr).symm)
      (fun s hs => hone s (List.mem_cons_of_mem _ hs)) hpair.2
    refine ⟨?_, ?_⟩
    · intro j hj
      rw [List.foldl_cons, hkeep j fun s hs => hj s (List.mem_cons_of_mem _ hs),
        entry_clear_of_eq_zero hr (hj r List.mem_cons_self)]
    · intro s hs
      rw [List.foldl_cons]
      rcases List.mem_cons.mp hs with rfl | hs
      · rw [hkeep _ fun s' hs' => (hpair.1 s' hs').1, entry_clear_basic hr (hone _ List.mem_cons_self)]
      · exact hzero s hs

end Clear

/-! ## The objective of the first phase -/

/-- The negated sum of the artificial variables. -/
def artificialSum (t : Tableau ℚ) : Equation ℚ :=
  ⟨List.replicate t.firstArtificial 0 ++ List.replicate t.numArtificial (-1), 0⟩

theorem entry_artificialSum (j : ℕ) : t.artificialSum.entry j =
    if t.firstArtificial ≤ j ∧ j < t.numColumns then -1 else 0 := by
  have hcols : t.numColumns = t.firstArtificial + t.numArtificial := rfl
  show (List.replicate t.firstArtificial (0 : ℚ) ++ List.replicate t.numArtificial (-1)).getD j 0 = _
  rw [List.getD_eq_getElem?_getD, List.getElem?_append, List.length_replicate,
    List.getElem?_replicate, List.getElem?_replicate]
  by_cases h1 : j < t.firstArtificial
  · rw [if_pos h1, if_pos h1, if_neg (by omega)]
    rfl
  · rw [if_neg h1]
    by_cases h2 : j < t.numColumns
    · rw [if_pos (by omega), if_pos (by omega)]
      rfl
    · rw [if_neg (by omega), if_neg (by omega)]
      rfl

theorem gap_artificialSum (x : ℕ → ℚ) :
    t.artificialSum.gap x = -∑ j ∈ Finset.Ico t.firstArtificial t.numColumns, x j := by
  have hlen : t.artificialSum.coefficients.length ≤ t.numColumns := by
    simp [artificialSum, numColumns, firstArtificial]
  have hle : t.firstArtificial ≤ t.numColumns := Nat.le_add_right _ _
  rw [Equation.gap, Equation.lhs, dot_eq_sum hlen, ← Finset.sum_neg_distrib]
  show _ - 0 = _
  rw [sub_zero, Finset.range_eq_Ico, ← Finset.sum_Ico_consecutive _ (Nat.zero_le _) hle,
    Finset.sum_eq_zero, zero_add]
  · refine Finset.sum_congr rfl ?_
    intro j hj
    rw [← Equation.entry_eq_getD, entry_artificialSum, if_pos (Finset.mem_Ico.mp hj), neg_one_mul]
  · intro j hj
    have hj' := (Finset.mem_Ico.mp hj).2
    rw [← Equation.entry_eq_getD, entry_artificialSum, if_neg (by omega), zero_mul]

/-- One row of the first phase's objective. -/
def addArtificial (t : Tableau ℚ) (objective : Equation ℚ) (r : BasicRow ℚ) : Equation ℚ :=
  if t.isArtificial r then objective.add r.equation else objective

theorem length_addArtificial {objective : Equation ℚ} {r : BasicRow ℚ}
    (hw : r.equation.coefficients.length = objective.coefficients.length) :
    (t.addArtificial objective r).coefficients.length = objective.coefficients.length := by
  unfold addArtificial
  split
  · exact Equation.length_add hw
  · rfl

/-- Adding the rows of the artificial variables keeps the value on solutions and adds one to the cost
of each artificial variable in the basis. -/
theorem foldl_addArtificial (rs : List (BasicRow ℚ)) {objective : Equation ℚ}
    (hw : ∀ r ∈ rs, r.equation.coefficients.length = objective.coefficients.length)
    (hone : ∀ r ∈ rs, r.equation.entry r.basic = 1)
    (hpair : rs.Pairwise fun r s => s.equation.entry r.basic = 0 ∧ r.equation.entry s.basic = 0) :
    let final := rs.foldl t.addArtificial objective
    final.coefficients.length = objective.coefficients.length ∧
      (∀ x, (∀ r ∈ rs, r.equation.gap x = 0) → final.gap x = objective.gap x) ∧
      (∀ j, (∀ r ∈ rs, r.equation.entry j = 0) → final.entry j = objective.entry j) ∧
      ∀ r ∈ rs, final.entry r.basic =
        objective.entry r.basic + if t.isArtificial r then 1 else 0 := by
  induction rs generalizing objective with
  | nil => exact ⟨rfl, fun _ _ => rfl, fun _ _ => rfl, by simp⟩
  | cons r rs ih =>
    rw [List.pairwise_cons] at hpair
    have hr := hw r List.mem_cons_self
    have hentry (j : ℕ) : (t.addArtificial objective r).entry j =
        objective.entry j + if t.isArtificial r then r.equation.entry j else 0 := by
      unfold addArtificial
      split
      · exact Equation.entry_add hr j
      · rw [add_zero]
    obtain ⟨hlen, hgap, hkeep, hbasic⟩ := @ih (t.addArtificial objective r)
      (fun s hs => (hw s (List.mem_cons_of_mem _ hs)).trans (length_addArtificial hr).symm)
      (fun s hs => hone s (List.mem_cons_of_mem _ hs)) hpair.2
    refine ⟨hlen.trans (length_addArtificial hr), ?_, ?_, ?_⟩
    · intro x hx
      rw [List.foldl_cons, hgap x fun s hs => hx s (List.mem_cons_of_mem _ hs)]
      unfold addArtificial
      split
      · rw [Equation.gap_add_equation hr, hx r List.mem_cons_self, add_zero]
      · rfl
    · intro j hj
      rw [List.foldl_cons, hkeep j fun s hs => hj s (List.mem_cons_of_mem _ hs), hentry,
        hj r List.mem_cons_self, ite_self, add_zero]
    · intro s hs
      rw [List.foldl_cons]
      rcases List.mem_cons.mp hs with rfl | hs
      · rw [hkeep _ fun s' hs' => (hpair.1 s' hs').1, hentry, hone _ List.mem_cons_self]
      · rw [hbasic s hs, hentry, (hpair.1 s hs).2, ite_self, add_zero]

/-! ## Tableaux with another objective -/

section Objective

variable (h : t.Canonical)
include h

theorem Canonical.withObjective {objective : Equation ℚ}
    (hw : objective.coefficients.length = t.numColumns) :
    Canonical { t with objective := objective } where
  width := h.width
  width_objective := hw
  basic_lt := h.basic_lt
  unit := h.unit

theorem Canonical.gap_price {tolerance : ℚ} {objective : Equation ℚ}
    (hw : objective.coefficients.length = t.numColumns) {x : ℕ → ℚ} (hx : t.Solves x) :
    (t.price tolerance objective).gap x = objective.gap x := by
  rw [price_eq_foldl]
  exact (foldl_clear t.rows fun r hr => (h.width r hr).trans hw.symm).2 x hx

theorem Canonical.length_price (tolerance : ℚ) {objective : Equation ℚ}
    (hw : objective.coefficients.length = t.numColumns) :
    (t.price tolerance objective).coefficients.length = t.numColumns := by
  rw [price_eq_foldl, (foldl_clear t.rows fun r hr => (h.width r hr).trans hw.symm).1, hw]

/-- Pricing out without a tolerance makes a tableau ready for a phase. -/
theorem Canonical.primal_price (hf : t.Feasible) {objective : Equation ℚ}
    (hw : objective.coefficients.length = t.numColumns) :
    Primal { t with objective := t.price 0 objective } where
  toCanonical := h.withObjective (h.length_price 0 hw)
  priced := (entry_foldl_clear t.rows (fun r hr => (h.width r hr).trans hw.symm)
    (fun _ hr => h.entry_basic hr) h.pairwise).2
  feasible := hf

private theorem artificialObjective_spec :
    t.artificialObjective.coefficients.length = t.numColumns ∧
      (∀ x, t.Solves x → t.artificialObjective.gap x = t.artificialSum.gap x) ∧
      ∀ r ∈ t.rows, t.artificialObjective.entry r.basic =
        t.artificialSum.entry r.basic + if t.isArtificial r then 1 else 0 := by
  have hlen : t.artificialSum.coefficients.length = t.numColumns := by
    simp [artificialSum, numColumns, firstArtificial]
  obtain ⟨hw, hgap, -, hbasic⟩ := foldl_addArtificial (t := t) t.rows
    (fun r hr => (h.width r hr).trans hlen.symm) (fun _ hr => h.entry_basic hr) h.pairwise
  exact ⟨hw.trans hlen, hgap, hbasic⟩

/-- On solutions the objective of the first phase is the negated sum of the artificial variables. -/
theorem Canonical.gap_artificialObjective {x : ℕ → ℚ} (hx : t.Solves x) :
    t.artificialObjective.gap x = -∑ j ∈ Finset.Ico t.firstArtificial t.numColumns, x j := by
  rw [(artificialObjective_spec h).2.1 x hx, gap_artificialSum]

/-- With its own objective the first phase starts from a tableau that is ready for it. -/
theorem Canonical.primal_artificialObjective (hf : t.Feasible) :
    Primal { t with objective := t.artificialObjective } where
  toCanonical := h.withObjective (artificialObjective_spec h).1
  priced := by
    intro r hr
    refine ((artificialObjective_spec h).2.2 r hr).trans ?_
    rw [entry_artificialSum]
    by_cases ha : t.firstArtificial ≤ r.basic
    · rw [if_pos ⟨ha, h.basic_lt r hr⟩, isArtificial, if_pos (decide_eq_true ha)]
      ring
    · rw [if_neg fun hc => ha hc.1, isArtificial, if_neg (by simpa using ha), add_zero]
  feasible := hf

end Objective

end LinearProgram.Tableau
