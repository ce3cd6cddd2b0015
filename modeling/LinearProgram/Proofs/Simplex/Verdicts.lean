import Mathlib
import LinearProgram.Proofs.Simplex.Interruption
import LinearProgram.Proofs.Simplex.Sharpness

/-!
# Verdicts at the shipped tolerance

A sharp run answers as a run without a tolerance does, so that its verdict on the model is right. The
shipped tolerance is one billionth whatever the scale of a model, though, and a run that takes smaller
numbers for zero can come to each of the wrong verdicts.
-/

namespace LinearProgram

/-- What a conclusive status says of the model is so: no assignment is feasible, feasible assignments are
better than every bound, or none is better than the objective value reported by more than `margin`. -/
def Solution.Right (answer : Solution ℚ) (m : Model ℚ) (margin : ℚ) : Prop :=
  match answer.status with
  | .infeasible => ∀ y, ¬m.Feasible y
  | .unbounded => ∀ B, ∃ y, m.Feasible y ∧ m.objective.sense.Better (m.value y) B
  | .optimal => ∃ z, answer.objective? = some z ∧
      ∀ y, m.Feasible y → m.objective.sense.score (m.value y) ≤ m.objective.sense.score z + margin
  | .timeLimitReached => True
  | .error => True

namespace Simplex

open Tableau

variable {m : Model ℚ}

/-- Without a tolerance every verdict is right. -/
theorem right_solve_exact (h : m.WellFormed) (maxPivots : ℕ) (clock : Clock ℚ) (limits : Limits ℚ) :
    (solve (.exact maxPivots) clock m limits).Right m 0 := by
  have hp := m.rectangular_dense
  unfold Solution.Right
  cases hstatus : (solve (.exact maxPivots) clock m limits).status with
  | optimal =>
    obtain ⟨hreach, hending, hobjective⟩ := objective?_of_status_eq_optimal hstatus
    refine ⟨_, hobjective, fun y hy => ?_⟩
    have hbest := not_better_point h hreach hending hy
    rwa [Sense.better_iff, not_lt, ← add_zero (Sense.score _ (m.value (m.valueAt _)))] at hbest
  | infeasible =>
    intro y hy
    rw [status_solve] at hstatus
    obtain ⟨hending, hvanish⟩ := (ascent_of_status_eq_infeasible hstatus).resolve_left
      (ending_ascent_ne_unbounded hp maxPivots _)
    exact not_feasible_of_ascent hp hending (fun hv => hvanish (artificialsVanish_iff.mpr hv)) _
      (h.feasible_columns hy)
  | unbounded =>
    intro B
    rw [status_solve] at hstatus
    obtain ⟨hreach, hending⟩ := summit_of_status_eq_unbounded hstatus
    obtain ⟨v, hv, hB⟩ := exists_better_summit hp hreach hending B
    exact ⟨m.assignment v, hv.assignment, m.dot_objective v ▸ hB⟩
  | timeLimitReached => trivial
  | error => trivial

/-- A sharp run gives the answer of the run without the tolerance. -/
theorem solve_eq_of_sharp {tolerance : ℚ} {maxPivots : ℕ} {clock : Clock ℚ} {limits : Limits ℚ}
    (h : Sharp tolerance maxPivots (deadline clock limits) m.dense) (h0 : 0 ≤ tolerance) :
    solve ⟨maxPivots, tolerance⟩ clock m limits = solve (.exact maxPivots) clock m limits := by
  unfold solve runOn
  rw [h.verdict_run h0 m.rectangular_dense]
  cases (run (.exact maxPivots) (deadline clock limits) m.dense).verdict <;> rfl

/-- **Soundness at the shipped tolerance.** Where the numbers that are compared are equal or further apart
than the tolerance, the answer is that of the run without it, and its verdict is right. -/
theorem shipped_right_of_sharp (h : m.Accepted) (clock : Clock ℚ) (limits : Limits ℚ)
    (hsharp : Sharp (1 / 1000000000) 10000 (deadline clock limits) m.dense) :
    solve .shipped clock m limits = solve (.exact 10000) clock m limits ∧
      (solve .shipped clock m limits).Right m 0 := by
  have hsettings : (Settings.shipped : Settings ℚ) = ⟨10000, 1 / 1000000000⟩ := by
    rw [Settings.shipped, Settings.mk.injEq]
    exact ⟨rfl, by decide +kernel⟩
  have hsolve := solve_eq_of_sharp hsharp (by norm_num)
  rw [← hsettings] at hsolve
  exact ⟨hsolve, hsolve ▸ right_solve_exact h.wellFormed 10000 clock limits⟩

/-- Maximize `x + y` where `x + 2y = 4`, `2x + 4y = 8`, `x - y ≥ -1` and `x ≤ 3`. -/
def blending : Model ℚ where
  vars := [⟨"x", .nonNegativeReals⟩, ⟨"y", .nonNegativeReals⟩]
  constraints :=
    [⟨"mix", ⟨[⟨"x", 1⟩, ⟨"y", 2⟩]⟩, .eq, 4⟩, ⟨"again", ⟨[⟨"x", 2⟩, ⟨"y", 4⟩]⟩, .eq, 8⟩,
      ⟨"apart", ⟨[⟨"x", 1⟩, ⟨"y", -1⟩]⟩, .ge, -1⟩, ⟨"cap", ⟨[⟨"x", 1⟩]⟩, .le, 3⟩]
  objective := ⟨⟨[⟨"x", 1⟩, ⟨"y", 1⟩]⟩, .maximize⟩

theorem accepted_blending : blending.Accepted :=
  ⟨[.declare "x" .nonNegativeReals, .declare "y" .nonNegativeReals,
    .constrain "mix" [("x", 1), ("y", 2)] .eq 4, .constrain "again" [("x", 2), ("y", 4)] .eq 8,
    .constrain "apart" [("x", 1), ("y", -1)] .ge (-1), .constrain "cap" [("x", 1)] .le 3,
    .pursue [("x", 1), ("y", 1)] .maximize], rfl⟩

/-- The blending problem is solved through both phases, with a row dropped in between, and none of its
numbers comes near the tolerance. -/
theorem shipped_right_of_sharp_blending :
    (solve .shipped (fun _ => .never) blending .unset).status = .optimal ∧
      solve .shipped (fun _ => .never) blending .unset =
        solve (.exact 10000) (fun _ => .never) blending .unset ∧
      (solve .shipped (fun _ => .never) blending .unset).Right blending 0 :=
  have hsharp : Sharp (1 / 1000000000) 10000 .never blending.dense :=
    { first := fun _ => by decide +kernel
      prices := fun _ => by decide +kernel
      walk := fun _ => by decide +kernel
      second := fun _ => by decide +kernel }
  have h := shipped_right_of_sharp accepted_blending (fun _ => .never) .unset hsharp
  ⟨by decide +kernel, h⟩

/-- Minimize `x` where `2⁻³¹ x ≥ 1`. -/
def farFloor : Model ℚ where
  vars := [⟨"x", .nonNegativeReals⟩]
  constraints := [⟨"floor", ⟨[⟨"x", 1 / 2 ^ 31⟩]⟩, .ge, 1⟩]
  objective := ⟨⟨[⟨"x", 1⟩]⟩, .minimize⟩

/-- Maximize `x` where `2⁻³¹ x ≤ 1`. -/
def farCap : Model ℚ where
  vars := [⟨"x", .nonNegativeReals⟩]
  constraints := [⟨"cap", ⟨[⟨"x", 1 / 2 ^ 31⟩]⟩, .le, 1⟩]
  objective := ⟨⟨[⟨"x", 1⟩]⟩, .maximize⟩

/-- Maximize `2⁻³¹ x` where `x ≤ 2³¹`. -/
def faintGain : Model ℚ where
  vars := [⟨"x", .nonNegativeReals⟩]
  constraints := [⟨"cap", ⟨[⟨"x", 1⟩]⟩, .le, 2 ^ 31⟩]
  objective := ⟨⟨[⟨"x", 1 / 2 ^ 31⟩]⟩, .maximize⟩

theorem accepted_farFloor : farFloor.Accepted :=
  ⟨[.declare "x" .nonNegativeReals, .constrain "floor" [("x", 1 / 2 ^ 31)] .ge 1,
    .pursue [("x", 1)] .minimize], rfl⟩

theorem accepted_farCap : farCap.Accepted :=
  ⟨[.declare "x" .nonNegativeReals, .constrain "cap" [("x", 1 / 2 ^ 31)] .le 1,
    .pursue [("x", 1)] .maximize], rfl⟩

theorem accepted_faintGain : faintGain.Accepted :=
  ⟨[.declare "x" .nonNegativeReals, .constrain "cap" [("x", 1)] .le (2 ^ 31),
    .pursue [("x", 1 / 2 ^ 31)] .maximize], rfl⟩

/-- One point is feasible for all three. -/
theorem feasible_far {m : Model ℚ} (h : m ∈ [farFloor, farCap, faintGain]) :
    m.Feasible fun _ => 2 ^ 31 := by
  refine ⟨fun v _ => by norm_num, ?_⟩
  fin_cases h <;> decide +kernel

/-- The cap bounds the objective. -/
theorem value_le_of_feasible_farCap {y : String → ℚ} (hy : farCap.Feasible y) :
    farCap.value y ≤ 2 ^ 31 := by
  have hcap := hy.holds ⟨"cap", ⟨[⟨"x", 1 / 2 ^ 31⟩]⟩, .le, 1⟩ (by simp [farCap])
  rw [Relation.holds_le] at hcap
  have hlhs : (⟨[⟨"x", 1 / 2 ^ 31⟩]⟩ : LinearExpr ℚ).evaluate y = -0 + 1 / 2 ^ 31 * y "x" := rfl
  have hvalue : farCap.value y = -0 + 1 * y "x" := rfl
  linarith

/-- A floor, a cap and a gain with coefficients below the tolerance count for nothing: the first model is
found infeasible, the second unbounded, and in the third nothing is gained. All three are wrong. -/
theorem shipped_not_right :
    (farFloor.Accepted ∧ (solve .shipped (fun _ => .never) farFloor .unset).status = .infeasible ∧
        ¬(solve .shipped (fun _ => .never) farFloor .unset).Right farFloor (1 / 1000000)) ∧
      (farCap.Accepted ∧ (solve .shipped (fun _ => .never) farCap .unset).status = .unbounded ∧
        ¬(solve .shipped (fun _ => .never) farCap .unset).Right farCap (1 / 1000000)) ∧
      faintGain.Accepted ∧ (solve .shipped (fun _ => .never) faintGain .unset).status = .optimal ∧
        ¬(solve .shipped (fun _ => .never) faintGain .unset).Right faintGain (1 / 1000000) := by
  have hfloor : (solve .shipped (fun _ => .never) farFloor .unset).status = .infeasible := by
    decide +kernel
  have hcap : (solve .shipped (fun _ => .never) farCap .unset).status = .unbounded := by
    decide +kernel
  have hgain : (solve .shipped (fun _ => .never) faintGain .unset).status = .optimal ∧
      (solve .shipped (fun _ => .never) faintGain .unset).objective? = some 0 := by
    decide +kernel
  refine ⟨⟨accepted_farFloor, hfloor, ?_⟩, ⟨accepted_farCap, hcap, ?_⟩, accepted_faintGain, hgain.1, ?_⟩
  · intro hright
    simp only [Solution.Right, hfloor] at hright
    exact hright _ (feasible_far (by simp))
  · intro hright
    simp only [Solution.Right, hcap] at hright
    obtain ⟨y, hy, hbetter⟩ := hright (2 ^ 31)
    exact absurd hbetter (not_lt.mpr (value_le_of_feasible_farCap hy))
  · intro hright
    simp only [Solution.Right, hgain.1, hgain.2] at hright
    obtain ⟨z, hz, hbest⟩ := hright
    have hvalue : faintGain.value (fun _ => 2 ^ 31) = 1 := by decide +kernel
    have hone := hbest _ (feasible_far (by simp))
    rw [hvalue, ← Option.some.inj hz] at hone
    exact absurd hone (by decide +kernel)

end Simplex

end LinearProgram
