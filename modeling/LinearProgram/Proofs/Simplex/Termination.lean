import Mathlib
import LinearProgram.Proofs.Simplex.Cycling
import LinearProgram.Proofs.Simplex.Exact

/-!
# Termination without a tolerance

Neither phase makes more pivots than there are bases for it to visit, whatever the limits and the clock.
A run that is allowed that many pivots therefore never ends by running out of them, and without a
deadline it comes to a conclusive answer.
-/

namespace LinearProgram.Simplex

open Tableau

/-- More pivots than a phase can make on a program: the sets of columns, counted twice for the two rules
by which a column enters. -/
def pivotBound (p : DenseProgram ℚ) : ℕ :=
  2 ^ ((ofProgram p).numColumns + 1)

section Phases

variable {p : DenseProgram ℚ} (hp : p.Rectangular) (maxPivots : ℕ) (deadline : Deadline)
include hp

theorem pivots_ascent_lt : (ascent (.exact maxPivots) deadline p).pivots < pivotBound p :=
  Stage.lt_of_lasts ((canonical_ofProgram hp).primal_artificialObjective feasible_ofProgram)
    (course_ascent (.exact maxPivots) deadline p).lasts

theorem ending_ascent_ne_pivotLimit (hle : pivotBound p ≤ maxPivots) :
    (ascent (.exact maxPivots) deadline p).ending ≠ .pivotLimit := by
  intro hending
  have hpivots : _ = maxPivots := (course_ascent (.exact maxPivots) deadline p).pivots_eq hending
  exact absurd hle (not_le.mpr (hpivots ▸ pivots_ascent_lt hp maxPivots deadline))

variable (h : Reaches (.exact maxPivots) deadline p)
include h

theorem pivots_summit_lt : (summit (.exact maxPivots) deadline p).pivots < pivotBound p := by
  have hready := ready_ready hp h
  rw [pivotBound, ← hready.numColumns]
  exact Stage.lt_of_lasts hready.primal (course_summit (.exact maxPivots) deadline p).lasts

theorem ending_summit_ne_pivotLimit (hle : pivotBound p ≤ maxPivots) :
    (summit (.exact maxPivots) deadline p).ending ≠ .pivotLimit := by
  intro hending
  have hpivots : _ = maxPivots := (course_summit (.exact maxPivots) deadline p).pivots_eq hending
  exact absurd hle (not_le.mpr (hpivots ▸ pivots_summit_lt hp maxPivots deadline h))

end Phases

/-! ## Conclusive answers -/

section Conclusive

variable {K : Type}

/-- A phase that no limit cuts off ends by itself. -/
theorem Climb.ending_eq_or {c : Climb K} (htime : c.ending ≠ .timeLimit)
    (hpivots : c.ending ≠ .pivotLimit) : c.ending = .optimal ∨ c.ending = .unbounded := by
  cases hending : c.ending with
  | optimal => exact .inl rfl
  | unbounded => exact .inr rfl
  | timeLimit => exact absurd hending htime
  | pivotLimit => exact absurd hending hpivots

variable [Scalar K] {s : Settings K} {p : DenseProgram K}

theorem ending_ascent_ne_timeLimit : (ascent s .never p).ending ≠ .timeLimit :=
  fun hending => Bool.false_ne_true ((course_ascent s .never p).expired_pivots hending)

theorem ending_summit_ne_timeLimit : (summit s .never p).ending ≠ .timeLimit :=
  fun hending => Bool.false_ne_true ((course_summit s .never p).expired_pivots hending)

/-- A run whose phases end by themselves is conclusive. -/
theorem status_mem_of_endings {deadline : Deadline}
    (hfirst : (ascent s deadline p).ending = .optimal ∨ (ascent s deadline p).ending = .unbounded)
    (hsecond : Reaches s deadline p →
      (summit s deadline p).ending = .optimal ∨ (summit s deadline p).ending = .unbounded) :
    (run s deadline p).verdict.status ∈ [Status.optimal, .infeasible, .unbounded] := by
  by_cases hreach : Reaches s deadline p
  · rw [verdict_of_reaches hreach, Climb.verdict]
    rcases hsecond hreach with hending | hending <;> rw [hending] <;> simp [Verdict.status]
  · rw [verdict_of_not_reaches hreach]
    rcases hfirst with hending | hending <;> rw [hending] <;> simp [Verdict.status]

end Conclusive

/-- Without a deadline, and with as many pivots allowed as a phase can make, a run is conclusive. -/
theorem status_run_mem {p : DenseProgram ℚ} (hp : p.Rectangular) {maxPivots : ℕ}
    (hle : pivotBound p ≤ maxPivots) : (run (.exact maxPivots) .never p).verdict.status ∈
      [Status.optimal, .infeasible, .unbounded] :=
  status_mem_of_endings
    (Climb.ending_eq_or ending_ascent_ne_timeLimit (ending_ascent_ne_pivotLimit hp _ _ hle))
    fun hreach => Climb.ending_eq_or ending_summit_ne_timeLimit
      (ending_summit_ne_pivotLimit hp _ _ hreach hle)

/-- **Termination.** Each phase makes fewer pivots than the bound, whatever the limits and the clock. A
phase that is allowed as many never ends by running out of them, and without a limit on time the model
is answered conclusively. -/
theorem phases_terminate (m : Model ℚ) (maxPivots : ℕ) (clock : Clock ℚ) (limits : Limits ℚ) :
    let d := deadline clock limits
    (ascent (.exact maxPivots) d m.dense).pivots < pivotBound m.dense ∧
      (Reaches (.exact maxPivots) d m.dense →
        (summit (.exact maxPivots) d m.dense).pivots < pivotBound m.dense) ∧
      (pivotBound m.dense ≤ maxPivots →
        (ascent (.exact maxPivots) d m.dense).ending ≠ .pivotLimit ∧
          (Reaches (.exact maxPivots) d m.dense →
            (summit (.exact maxPivots) d m.dense).ending ≠ .pivotLimit) ∧
          (limits.time? = none → (solve (.exact maxPivots) clock m limits).status ∈
            [Status.optimal, .infeasible, .unbounded])) := by
  have hp := m.rectangular_dense
  intro d
  refine ⟨pivots_ascent_lt hp maxPivots d, pivots_summit_lt hp maxPivots d, ?_⟩
  intro hle
  refine ⟨ending_ascent_ne_pivotLimit hp maxPivots d hle,
    fun hreach => ending_summit_ne_pivotLimit hp maxPivots d hreach hle, ?_⟩
  intro htime
  have hnever : deadline clock limits = .never := by rw [deadline, htime]
  rw [status_solve, hnever]
  exact status_run_mem hp hle

/-- Minimize `-3/4 a + 150 b - 1/50 c + 6 d` where `1/4 a - 60 b - 1/25 c + 9 d ≤ 0`,
`1/2 a - 90 b - 1/50 c + 3 d ≤ 0`, `c ≤ 1` and `a + c ≥ 0`. Entering the largest cost after degenerate
pivots too would go round in six of them, in the second phase. -/
def circling : Model ℚ where
  vars := ["a", "b", "c", "d"].map fun id => ⟨id, .nonNegativeReals⟩
  constraints :=
    [⟨"first", ⟨[⟨"a", 1 / 4⟩, ⟨"b", -60⟩, ⟨"c", -1 / 25⟩, ⟨"d", 9⟩]⟩, .le, 0⟩,
      ⟨"second", ⟨[⟨"a", 1 / 2⟩, ⟨"b", -90⟩, ⟨"c", -1 / 50⟩, ⟨"d", 3⟩]⟩, .le, 0⟩,
      ⟨"cap", ⟨[⟨"c", 1⟩]⟩, .le, 1⟩, ⟨"floor", ⟨[⟨"a", 1⟩, ⟨"c", 1⟩]⟩, .ge, 0⟩]
  objective := ⟨⟨[⟨"a", -3 / 4⟩, ⟨"b", 150⟩, ⟨"c", -1 / 50⟩, ⟨"d", 6⟩]⟩, .minimize⟩

/-- Both phases of the circling problem end, and it is answered. -/
theorem phases_terminate_circling :
    pivotBound circling.dense = 1024 ∧
      (summit (.exact 1024) .never circling.dense).pivots < 1024 ∧
      (ascent (.exact 1024) .never circling.dense).ending ≠ .pivotLimit ∧
      (summit (.exact 1024) .never circling.dense).ending ≠ .pivotLimit ∧
      (solve (.exact 1024) (fun _ => .never) circling .unset).status ∈
        [Status.optimal, .infeasible, .unbounded] :=
  have hbound : pivotBound circling.dense = 1024 := by decide +kernel
  have hreach : Reaches (.exact 1024) .never circling.dense := by
    unfold Reaches
    decide +kernel
  have h := phases_terminate circling 1024 (fun _ => .never) .unset
  have hends := h.2.2 hbound.le
  ⟨hbound, hbound ▸ h.2.1 hreach, hends.1, hends.2.1 hreach, hends.2.2 rfl⟩

end LinearProgram.Simplex
