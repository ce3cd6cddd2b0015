import Mathlib
import LinearProgram.Proofs.Simplex.Exact

/-!
# Soundness without a tolerance

What the three conclusive answers of the method mean when its arithmetic is exact: an optimal point is
feasible and nothing feasible is better, an infeasible model has no feasible assignment, and an unbounded
one has feasible assignments beyond every bound. None of it depends on the limits or on the clock.
-/

namespace LinearProgram.Simplex

open Tableau

variable {m : Model ℚ}

/-- **Soundness of optimality.** The values and activities reported meet the model exactly, and no
feasible assignment has a better objective value than the one reported. -/
theorem solve_optimal_sound (h : m.Accepted) (maxPivots : ℕ) (clock : Clock ℚ) (limits : Limits ℚ)
    (hstatus : (solve (.exact maxPivots) clock m limits).status = .optimal) :
    (solve (.exact maxPivots) clock m limits).Meets m 0 ∧
      ∃ z, (solve (.exact maxPivots) clock m limits).objective? = some z ∧
        ∀ y, m.Feasible y → ¬m.objective.sense.Better (m.value y) z := by
  rw [status_solve] at hstatus
  obtain ⟨hreach, hending, hpoint⟩ := summit_of_status_eq_optimal hstatus
  have hready := ready_summit m.rectangular_dense hreach
  have hvalue := valueAt_point hready.primal.toCanonical
    (hready.numVariables.trans m.numVariables_dense)
  have hfeasible := (hready.feasible_basicSolution m.rectangular_dense).1.assignment
  rw [← hvalue] at hfeasible
  have hsolve : solve (.exact maxPivots) clock m limits = _ := toSolution_of_point? hpoint
  rw [hsolve]
  refine ⟨Solution.meets_atPoint h.wellFormed hfeasible, _, rfl, ?_⟩
  intro y hy
  have hbest := not_better_summit m.rectangular_dense hreach hending (h.wellFormed.feasible_columns hy)
  rwa [m.dot_objective, m.dot_objective, h.wellFormed.value_columns, ← hvalue] at hbest

/-- Minimize `x + y` where `x + 2y ≥ 2`, `x - y = -1` and `x ≤ 3`. -/
def covering : Model ℚ where
  vars := [⟨"x", .nonNegativeReals⟩, ⟨"y", .nonNegativeReals⟩]
  constraints :=
    [⟨"cover", ⟨[⟨"x", 1⟩, ⟨"y", 2⟩]⟩, .ge, 2⟩, ⟨"apart", ⟨[⟨"x", 1⟩, ⟨"y", -1⟩]⟩, .eq, -1⟩,
      ⟨"cap", ⟨[⟨"x", 1⟩]⟩, .le, 3⟩]
  objective := ⟨⟨[⟨"x", 1⟩, ⟨"y", 1⟩]⟩, .minimize⟩

theorem accepted_covering : covering.Accepted :=
  ⟨[.declare "x" .nonNegativeReals, .declare "y" .nonNegativeReals,
    .constrain "cover" [("x", 1), ("y", 2)] .ge 2, .constrain "apart" [("x", 1), ("y", -1)] .eq (-1),
    .constrain "cap" [("x", 1)] .le 3, .pursue [("x", 1), ("y", 1)] .minimize], rfl⟩

/-- The covering problem is solved through both phases. -/
theorem solve_optimal_sound_covering : covering.Accepted ∧
    (solve (.exact 10) (fun _ => .never) covering .unset).status = .optimal ∧
      (solve (.exact 10) (fun _ => .never) covering .unset).Meets covering 0 ∧
        ∃ z, (solve (.exact 10) (fun _ => .never) covering .unset).objective? = some z ∧
          ∀ y, covering.Feasible y → ¬covering.objective.sense.Better (covering.value y) z :=
  have hstatus : (solve (.exact 10) (fun _ => .never) covering .unset).status = .optimal := by
    decide +kernel
  ⟨accepted_covering, hstatus, solve_optimal_sound accepted_covering 10 _ _ hstatus⟩

/-- **Soundness of infeasibility.** The first phase never ends unbounded, and a model that is found
infeasible has no feasible assignment. -/
theorem solve_infeasible_sound (h : m.Accepted) (maxPivots : ℕ) (clock : Clock ℚ)
    (limits : Limits ℚ) :
    (firstPhase (.exact maxPivots) (deadline clock limits) (ofProgram m.dense)).ending ≠ .unbounded ∧
      ((solve (.exact maxPivots) clock m limits).status = .infeasible → ∀ y, ¬m.Feasible y) := by
  have hbounded := ending_ascent_ne_unbounded m.rectangular_dense maxPivots (deadline clock limits)
  refine ⟨hbounded, ?_⟩
  intro hstatus y hy
  rw [status_solve] at hstatus
  obtain ⟨hending, hvanish⟩ := (ascent_of_status_eq_infeasible hstatus).resolve_left hbounded
  exact not_feasible_of_ascent m.rectangular_dense hending
    (fun hv => hvanish (artificialsVanish_iff.mpr hv)) _ (h.wellFormed.feasible_columns hy)

/-- Maximize `x` where `x ≤ 1` and `x ≥ 2`. -/
def conflicting : Model ℚ where
  vars := [⟨"x", .nonNegativeReals⟩]
  constraints := [⟨"cap", ⟨[⟨"x", 1⟩]⟩, .le, 1⟩, ⟨"floor", ⟨[⟨"x", 1⟩]⟩, .ge, 2⟩]
  objective := ⟨⟨[⟨"x", 1⟩]⟩, .maximize⟩

theorem accepted_conflicting : conflicting.Accepted :=
  ⟨[.declare "x" .nonNegativeReals, .constrain "cap" [("x", 1)] .le 1,
    .constrain "floor" [("x", 1)] .ge 2, .pursue [("x", 1)] .maximize], rfl⟩

theorem solve_infeasible_sound_conflicting : conflicting.Accepted ∧
    (solve (.exact 10) (fun _ => .never) conflicting .unset).status = .infeasible ∧
      ∀ y, ¬conflicting.Feasible y :=
  have hstatus : (solve (.exact 10) (fun _ => .never) conflicting .unset).status = .infeasible := by
    decide +kernel
  ⟨accepted_conflicting, hstatus, (solve_infeasible_sound accepted_conflicting 10 _ _).2 hstatus⟩

/-- **Soundness of unboundedness.** A model that is found unbounded has a feasible assignment, and
feasible assignments with objective values better than any bound. -/
theorem solve_unbounded_sound (m : Model ℚ) (maxPivots : ℕ) (clock : Clock ℚ) (limits : Limits ℚ)
    (hstatus : (solve (.exact maxPivots) clock m limits).status = .unbounded) :
    (∃ y, m.Feasible y) ∧
      ∀ B, ∃ y, m.Feasible y ∧ m.objective.sense.Better (m.value y) B := by
  rw [status_solve] at hstatus
  obtain ⟨hreach, hending⟩ := summit_of_status_eq_unbounded hstatus
  have hready := ready_summit m.rectangular_dense hreach
  refine ⟨⟨_, (hready.feasible_basicSolution m.rectangular_dense).1.assignment⟩, ?_⟩
  intro B
  obtain ⟨v, hv, hB⟩ := exists_better_summit m.rectangular_dense hreach hending B
  exact ⟨m.assignment v, hv.assignment, m.dot_objective v ▸ hB⟩

/-- Minimize `x - 2y` where `x - y ≥ -1` and `x + y ≥ 1`. -/
def receding : Model ℚ where
  vars := [⟨"x", .nonNegativeReals⟩, ⟨"y", .nonNegativeReals⟩]
  constraints :=
    [⟨"above", ⟨[⟨"x", 1⟩, ⟨"y", -1⟩]⟩, .ge, -1⟩, ⟨"beyond", ⟨[⟨"x", 1⟩, ⟨"y", 1⟩]⟩, .ge, 1⟩]
  objective := ⟨⟨[⟨"x", 1⟩, ⟨"y", -2⟩]⟩, .minimize⟩

theorem solve_unbounded_sound_receding :
    (solve (.exact 10) (fun _ => .never) receding .unset).status = .unbounded ∧
      (∃ y, receding.Feasible y) ∧
        ∀ B, ∃ y, receding.Feasible y ∧ receding.objective.sense.Better (receding.value y) B :=
  have hstatus : (solve (.exact 10) (fun _ => .never) receding .unset).status = .unbounded := by
    decide +kernel
  ⟨hstatus, solve_unbounded_sound receding 10 _ _ hstatus⟩

end LinearProgram.Simplex
