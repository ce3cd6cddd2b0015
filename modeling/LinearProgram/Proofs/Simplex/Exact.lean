import Mathlib
import LinearProgram.Proofs.Simplex.Course
import LinearProgram.Proofs.Simplex.HandOver
import LinearProgram.Proofs.Simplex.Start

/-!
# Runs without a tolerance

Without a tolerance every comparison of the method is exact. The tableaux of the second phase then are
the program as far as its own variables and its slacks go (`ready_ready`, `Ready.climb`), so that a point
read off a tableau is feasible and feasible columns solve every tableau. What the two phases have not
found when they end is turned into statements on the feasible columns of the program.
-/

namespace LinearProgram.Tableau

variable {t₀ t : Tableau ℚ}

/-! ## The second phase keeps what it starts from -/

/-- Where there are no artificial columns, the starting tableau is ready for the second phase. -/
theorem Primal.ready_self (h : t.Primal) (h0 : t.numArtificial = 0) : Ready t t where
  primal := h
  structural r hr := by
    have hlt := h.basic_lt r hr
    rwa [numColumns, h0, Nat.add_zero] at hlt
  numVariables := rfl
  firstArtificial := rfl
  numColumns := rfl
  solves_iff _ _ := Iff.rfl
  gap_objective _ _ _ := rfl

theorem Ready.climb (h : Ready t₀ t) (expired : ℕ → Bool) (left made : ℕ) (lowestIndex : Bool) :
    Ready t₀ (Simplex.climb 0 t.firstArtificial expired left made lowestIndex t).tableau := by
  obtain ⟨-, heq⟩ := h.primal.toCanonical.climb (le_refl (0 : ℚ)) t.firstArtificial expired left made
    lowestIndex
  exact
    { primal := h.primal.climb _ expired left made lowestIndex
      structural := (h.structural.climb expired left made lowestIndex).1
      numVariables := heq.numVariables.trans h.numVariables
      firstArtificial := heq.firstArtificial.trans h.firstArtificial
      numColumns := heq.numColumns.trans h.numColumns
      solves_iff := fun x hx => (heq.solves_iff x).trans (h.solves_iff x hx)
      gap_objective := fun x hx hsolves =>
        (heq.gap_objective x ((h.solves_iff x hx).mpr hsolves)).trans (h.gap_objective x hx hsolves) }

/-- No artificial variable is in the basis. -/
theorem Ready.isBasic_eq_false (h : Ready t₀ t) {j : ℕ} (hj : t₀.firstArtificial ≤ j) :
    t.isBasic j = false :=
  h.structural.isBasic_eq_false (h.firstArtificial.trans_le hj)

theorem Ready.unaided_basicSolution (h : Ready t₀ t) : t₀.Unaided t.basicSolution :=
  fun _ hj _ => basicSolution_of_not_basic (h.isBasic_eq_false hj)

/-- Along an edge of another column artificial variables stay zero. -/
theorem Ready.unaided_edge (h : Ready t₀ t) {col : ℕ} (hcol : col < t₀.firstArtificial) (θ : ℚ) :
    t₀.Unaided (t.edge col θ) := by
  intro j hj _
  rw [edge, complete_of_not_basic (h.isBasic_eq_false hj), if_neg (by omega)]

/-! ## Tableaux of a program -/

section Program

variable {p : DenseProgram ℚ} (hp : p.Rectangular)
include hp

theorem unaided_extend (v : ℕ → ℚ) : (ofProgram p).Unaided (extend p v) :=
  fun _ hj _ => extend_artificial hp hj v

theorem gap_objective_extend (v : ℕ → ℚ) :
    (ofProgram p).objective.gap (extend p v) = p.sense.score (dot p.objective v) := by
  rw [gap_objective_ofProgram]
  congr 1
  refine dot_congr ?_
  intro j hj
  rw [hp.objective] at hj
  exact extend_of_lt hj v

variable (h : Ready (ofProgram p) t)
include h

/-- Feasible columns extend to a solution, where the objective has their score. -/
theorem Ready.extend {v : ℕ → ℚ} (hv : p.Feasible v) :
    t.Solves (extend p v) ∧ t.objective.gap (extend p v) = p.sense.score (dot p.objective v) := by
  have hsolves := solves_extend hp hv
  have hun := unaided_extend hp v
  refine ⟨(h.solves_iff _ hun).mpr hsolves, ?_⟩
  rw [h.gap_objective _ hun hsolves, gap_objective_extend hp]

/-- A solution that is not negative and does without artificial variables is feasible, and the objective
has its score. -/
theorem Ready.feasible {x : ℕ → ℚ} (hx : t.Solves x) (hnonneg : ∀ j, 0 ≤ x j)
    (hun : (ofProgram p).Unaided x) :
    p.Feasible x ∧ t.objective.gap x = p.sense.score (dot p.objective x) := by
  have hsolves := (h.solves_iff x hun).mp hx
  refine ⟨⟨hnonneg, fun r hr => holds_of_solves hp hsolves hnonneg hun hr⟩, ?_⟩
  rw [h.gap_objective x hun hsolves, gap_objective_ofProgram]

/-- The basic solution is feasible. -/
theorem Ready.feasible_basicSolution : p.Feasible t.basicSolution ∧
    t.objective.gap t.basicSolution = p.sense.score (dot p.objective t.basicSolution) :=
  h.feasible hp (solves_basicSolution h.primal.toCanonical)
    (basicSolution_nonneg h.primal.toCanonical h.primal.feasible) h.unaided_basicSolution

/-- Where no column before the artificial ones improves the objective, nothing feasible is better than
the basic solution. -/
theorem Ready.not_better {lowestIndex : Bool}
    (hcol : t.entering? 0 (ofProgram p).firstArtificial lowestIndex = none) {v : ℕ → ℚ}
    (hv : p.Feasible v) :
    ¬p.sense.Better (dot p.objective v) (dot p.objective t.basicSolution) := by
  obtain ⟨-, hgap⟩ := h.extend hp hv
  have hle : t.objective.gap (Tableau.extend p v) ≤ t.objective.gap t.basicSolution := by
    refine h.primal.gap_objective_le hcol (extend_nonneg hv) ?_
    intro j hj hlt
    rw [h.numColumns] at hlt
    exact unaided_extend hp v j hj hlt
  rw [hgap, (h.feasible_basicSolution hp).2] at hle
  rw [Sense.better_iff]
  exact not_lt.mpr hle

/-- Where a column improves the objective and no row leaves for it, feasible columns exceed every
bound. -/
theorem Ready.exists_better {lowestIndex : Bool} {col : ℕ}
    (hcol : t.entering? 0 (ofProgram p).firstArtificial lowestIndex = some col)
    (hrow : t.leaving? 0 col = none) (B : ℚ) : ∃ v, p.Feasible v ∧ p.sense.Better (dot p.objective v) B := by
  obtain ⟨θ, hnonneg, hB⟩ := h.primal.exists_edge_gt hcol hrow (p.sense.score B)
  have hlt := (lt_entry_of_entering?_eq_some hcol).1
  obtain ⟨hfeasible, hgap⟩ := h.feasible hp (solves_complete h.primal.toCanonical _) hnonneg
    (h.unaided_edge hlt θ)
  exact ⟨_, hfeasible, Sense.better_iff.mpr (hgap ▸ hB)⟩

end Program

end LinearProgram.Tableau

namespace LinearProgram.Simplex

open Tableau

/-- Settings without a tolerance. -/
def Settings.exact (maxPivots : ℕ) : Settings ℚ :=
  ⟨maxPivots, 0⟩

variable {maxPivots : ℕ} {deadline : Deadline} {p : DenseProgram ℚ} (hp : p.Rectangular)
include hp

/-! ## The first phase -/

/-- The first phase ends with a tableau that has the solutions of the starting one, on which its
objective is the negated sum of the artificial variables. -/
theorem primal_ascent (maxPivots : ℕ) (deadline : Deadline) :
    (ascent (.exact maxPivots) deadline p).tableau.Primal ∧
      Equivalent { ofProgram p with objective := (ofProgram p).artificialObjective }
        (ascent (.exact maxPivots) deadline p).tableau := by
  have hprimal := (canonical_ofProgram hp).primal_artificialObjective feasible_ofProgram
  exact ⟨hprimal.climb _ _ _ _ _, (hprimal.toCanonical.climb (le_refl (0 : ℚ)) _ _ _ _ _).2⟩

theorem gap_objective_ascent {x : ℕ → ℚ}
    (hx : (ascent (.exact maxPivots) deadline p).tableau.Solves x) :
    (ascent (.exact maxPivots) deadline p).tableau.objective.gap x =
      -∑ j ∈ Finset.Ico (ofProgram p).firstArtificial (ofProgram p).numColumns, x j := by
  have heq := (primal_ascent hp maxPivots deadline).2
  have hstart := (heq.solves_iff x).mp hx
  rw [heq.gap_objective x hstart]
  exact (canonical_ofProgram hp).gap_artificialObjective hstart

/-- The objective of the first phase never exceeds zero, so the phase does not end unbounded. -/
theorem ending_ascent_ne_unbounded (maxPivots : ℕ) (deadline : Deadline) :
    (ascent (.exact maxPivots) deadline p).ending ≠ .unbounded := by
  intro hending
  obtain ⟨_, col, hcol, hrow⟩ := leaving?_of_ending_eq_unbounded hending
  have hprimal := (primal_ascent hp maxPivots deadline).1
  obtain ⟨θ, hnonneg, hpos⟩ := hprimal.exists_edge_gt hcol hrow 0
  have hgap := gap_objective_ascent hp (solves_edge hprimal.toCanonical col θ)
  have hsum := Finset.sum_nonneg fun j (_ : j ∈ Finset.Ico (ofProgram p).firstArtificial
    (ofProgram p).numColumns) => hnonneg j
  linarith

/-- Where the first phase cannot drive the artificial variables to zero, no columns are feasible. -/
theorem not_feasible_of_ascent (hending : (ascent (.exact maxPivots) deadline p).ending = .optimal)
    (hvanish : ¬(ascent (.exact maxPivots) deadline p).tableau.Vanishing) (v : ℕ → ℚ) :
    ¬p.Feasible v := by
  intro hv
  obtain ⟨_, hcol⟩ := entering?_of_ending_eq_optimal hending
  obtain ⟨hprimal, heq⟩ := primal_ascent hp maxPivots deadline
  -- the extension of feasible columns has the best value that the objective could have
  have hsolves := (heq.solves_iff (extend p v)).mpr (solves_extend hp hv)
  have hzero := gap_objective_ascent hp hsolves
  rw [Finset.sum_eq_zero fun j hj =>
    unaided_extend hp v j (Finset.mem_Ico.mp hj).1 (Finset.mem_Ico.mp hj).2, neg_zero] at hzero
  have hle := hprimal.gap_objective_le hcol (extend_nonneg hv)
    fun j hj hlt => absurd (heq.numColumns ▸ hlt) (not_lt.mpr hj)
  -- but in the basic solution an artificial variable is positive
  simp only [Vanishing, not_forall] at hvanish
  obtain ⟨r, hr, ha, hne⟩ := hvanish
  have hbasic := gap_objective_ascent hp (solves_basicSolution hprimal.toCanonical)
  have hmem : r.basic ∈ Finset.Ico (ofProgram p).firstArtificial (ofProgram p).numColumns := by
    have hlt := hprimal.basic_lt r hr
    rw [heq.numColumns] at hlt
    rw [heq.firstArtificial] at ha
    exact Finset.mem_Ico.mpr ⟨ha, hlt⟩
  have hsingle := Finset.single_le_sum
    (fun j _ => basicSolution_nonneg hprimal.toCanonical hprimal.feasible j) hmem
  rw [basicSolution_of_mem hprimal.toCanonical hr] at hsingle
  have hpos : 0 < r.equation.rhs := lt_of_le_of_ne (hprimal.feasible r hr) (Ne.symm hne)
  linarith

/-! ## The second phase -/

/-- What the first phase hands over is the program, when it has driven the artificial variables to
zero. -/
theorem ready_handOver
    (hvanish : (ascent (.exact maxPivots) deadline p).tableau.artificialsVanish 0 = true) :
    Ready (ofProgram p) (handOver (.exact maxPivots) (ofProgram p).objective
      (ascent (.exact maxPivots) deadline p).tableau).1 := by
  obtain ⟨hprimal, heq⟩ := primal_ascent hp maxPivots deadline
  have hw : (ofProgram p).objective.coefficients.length =
      (ascent (.exact maxPivots) deadline p).tableau.numColumns :=
    (canonical_ofProgram hp).width_objective.trans heq.numColumns.symm
  have hready := (hprimal.toCanonical.primal_price hprimal.feasible hw).ready_expelArtificials
    (artificialsVanish_iff.mp hvanish)
  have hun {x : ℕ → ℚ} (hx : (ofProgram p).Unaided x) :
      (ascent (.exact maxPivots) deadline p).tableau.Unaided x :=
    fun j hj hlt => hx j (heq.firstArtificial ▸ hj) (heq.numColumns ▸ hlt)
  exact
    { primal := hready.primal
      structural := hready.structural
      numVariables := hready.numVariables.trans heq.numVariables
      firstArtificial := hready.firstArtificial.trans heq.firstArtificial
      numColumns := hready.numColumns.trans heq.numColumns
      solves_iff := fun x hx => (hready.solves_iff x (hun hx)).trans (heq.solves_iff x)
      gap_objective := fun x hx hsolves =>
        (hready.gap_objective x (hun hx) ((heq.solves_iff x).mpr hsolves)).trans
          (hprimal.toCanonical.gap_price hw ((heq.solves_iff x).mpr hsolves)) }

/-- A run that comes to its second phase starts it from the program. -/
theorem ready_ready (h : Reaches (.exact maxPivots) deadline p) :
    Ready (ofProgram p) (ready (.exact maxPivots) deadline p) := by
  have hstart : (ofProgram p).Primal :=
    ⟨canonical_ofProgram hp, priced_ofProgram hp, feasible_ofProgram⟩
  unfold ready
  by_cases h0 : (ofProgram p).numArtificial = 0
  · rw [if_pos h0]
    exact hstart.ready_self h0
  · rw [if_neg h0]
    exact ready_handOver hp (h.resolve_left h0).2

section Summit

variable (h : Reaches (.exact maxPivots) deadline p)
include h

theorem ready_summit : Ready (ofProgram p) (summit (.exact maxPivots) deadline p).tableau :=
  (ready_ready hp h).climb _ _ _ _

/-- Nothing feasible is better than the point that the second phase ends with when it is optimal. -/
theorem not_better_summit (hending : (summit (.exact maxPivots) deadline p).ending = .optimal)
    {v : ℕ → ℚ} (hv : p.Feasible v) : ¬p.sense.Better (dot p.objective v)
      (dot p.objective (summit (.exact maxPivots) deadline p).tableau.basicSolution) := by
  obtain ⟨_, hcol⟩ : ∃ b, (summit (.exact maxPivots) deadline p).tableau.entering? 0
      (ready (.exact maxPivots) deadline p).firstArtificial b = none :=
    entering?_of_ending_eq_optimal hending
  rw [(ready_ready hp h).firstArtificial] at hcol
  exact (ready_summit hp h).not_better hp hcol hv

/-- Feasible columns are better than any bound when the second phase ends unbounded. -/
theorem exists_better_summit (hending : (summit (.exact maxPivots) deadline p).ending = .unbounded)
    (B : ℚ) : ∃ v, p.Feasible v ∧ p.sense.Better (dot p.objective v) B := by
  obtain ⟨_, col, hcol, hrow⟩ : ∃ b col, (summit (.exact maxPivots) deadline p).tableau.entering? 0
        (ready (.exact maxPivots) deadline p).firstArtificial b = some col ∧
      (summit (.exact maxPivots) deadline p).tableau.leaving? 0 col = none :=
    leaving?_of_ending_eq_unbounded hending
  rw [(ready_ready hp h).firstArtificial] at hcol
  exact (ready_summit hp h).exists_better hp hcol hrow B

end Summit

end LinearProgram.Simplex
