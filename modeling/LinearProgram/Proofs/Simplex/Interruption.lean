import Mathlib
import LinearProgram.Proofs.Simplex.Progress
import LinearProgram.Proofs.Simplex.Exact

/-!
# Interrupted runs

A deadline can cut a run off in either phase and after any number of pivots. In the first phase there is
nothing to report. In the second the basic solution is feasible at every stage, and since the second
phases of all runs on a model are places of one sequence, the one that has gone further has the better
point.
-/

namespace LinearProgram.Simplex

open Tableau

section Interruptions

variable {K : Type} [Scalar K] {s : Settings K} {deadline : Deadline} {p : DenseProgram K}

/-- The deadline cuts off the first phase. -/
def InterruptedFirst (s : Settings K) (deadline : Deadline) (p : DenseProgram K) : Prop :=
  (ofProgram p).numArtificial ≠ 0 ∧ (ascent s deadline p).ending = .timeLimit

/-- The deadline cuts off the second phase. -/
def InterruptedSecond (s : Settings K) (deadline : Deadline) (p : DenseProgram K) : Prop :=
  Reaches s deadline p ∧ (summit s deadline p).ending = .timeLimit

theorem InterruptedFirst.verdict_eq (h : InterruptedFirst s deadline p) :
    (run s deadline p).verdict = .timeLimit none := by
  have hreach : ¬Reaches s deadline p := by
    rintro (h0 | ⟨hending, -⟩)
    · exact h.1 h0
    · rw [h.2] at hending
      exact Ending.noConfusion hending
  rw [verdict_of_not_reaches hreach, h.2]

theorem InterruptedSecond.verdict_eq (h : InterruptedSecond s deadline p) :
    (run s deadline p).verdict = .timeLimit (some (summit s deadline p).tableau.point) := by
  rw [verdict_of_reaches h.1, Climb.verdict, h.2]

/-- The time is over exactly when the deadline has cut off a phase. -/
theorem status_eq_timeLimitReached_iff : (run s deadline p).verdict.status = .timeLimitReached ↔
    InterruptedFirst s deadline p ∨ InterruptedSecond s deadline p := by
  constructor
  · intro h
    by_cases hreach : Reaches s deadline p
    · rw [verdict_of_reaches hreach, Climb.verdict] at h
      refine .inr ⟨hreach, ?_⟩
      cases hending : (summit s deadline p).ending <;> simp_all [Verdict.status]
    · rw [verdict_of_not_reaches hreach] at h
      refine .inl ⟨fun h0 => hreach (.inl h0), ?_⟩
      cases hending : (ascent s deadline p).ending <;> simp_all [Verdict.status]
  · rintro (h | h) <;> rw [h.verdict_eq] <;> rfl

end Interruptions

/-! ## Second phases of different runs -/

section Program

variable {maxPivots maxPivots' : ℕ} {deadline deadline' : Deadline} {p : DenseProgram ℚ}

/-- The tableau that the second phase starts from does not depend on the limits. -/
theorem ready_eq (h : Reaches (.exact maxPivots) deadline p)
    (h' : Reaches (.exact maxPivots') deadline' p) :
    ready (.exact maxPivots') deadline' p = ready (.exact maxPivots) deadline p := by
  unfold ready
  by_cases h0 : (ofProgram p).numArtificial = 0
  · rw [if_pos h0, if_pos h0]
  · have hascent := (course_ascent (.exact maxPivots') deadline' p).tableau_eq
      (course_ascent (.exact maxPivots) deadline p) (h'.resolve_left h0).1 (h.resolve_left h0).1
    rw [if_neg h0, if_neg h0, hascent]
    rfl

/-- The second phase that has made more pivots has an objective that is at least as good at its basic
solution. -/
theorem rhs_objective_summit_le (hp : p.Rectangular) (h : Reaches (.exact maxPivots) deadline p)
    (h' : Reaches (.exact maxPivots') deadline' p)
    (hle : (summit (.exact maxPivots) deadline p).pivots ≤
      (summit (.exact maxPivots') deadline' p).pivots) :
    (summit (.exact maxPivots') deadline' p).tableau.objective.rhs ≤
      (summit (.exact maxPivots) deadline p).tableau.objective.rhs := by
  have hcourse := course_summit (.exact maxPivots') deadline' p
  rw [secondStage, ready_eq h h'] at hcourse
  rw [hcourse.tableau, (course_summit (.exact maxPivots) deadline p).tableau]
  exact Stage.rhs_objective_after_le (ready_ready hp h).primal hle

end Program

/-! ## Incumbents -/

section Incumbent

variable {m : Model ℚ} {maxPivots maxPivots' : ℕ} {deadline deadline' : Deadline}

/-- The point of a second phase is feasible, and the right-hand side of the objective is its score,
negated. -/
theorem feasible_summit (h : Reaches (.exact maxPivots) deadline m.dense) :
    m.Feasible (m.valueAt (summit (.exact maxPivots) deadline m.dense).tableau.point) ∧
      m.objective.sense.score
          (m.value (m.valueAt (summit (.exact maxPivots) deadline m.dense).tableau.point)) =
        -(summit (.exact maxPivots) deadline m.dense).tableau.objective.rhs := by
  have hready := ready_summit m.rectangular_dense h
  obtain ⟨hfeasible, hgap⟩ := hready.feasible_basicSolution m.rectangular_dense
  rw [valueAt_point hready.primal.toCanonical (hready.numVariables.trans m.numVariables_dense),
    ← gap_objective_basicSolution hready.primal.priced, hgap, m.dot_objective]
  exact ⟨hfeasible.assignment, rfl⟩

/-- Nothing feasible is better than the point of a second phase that ends optimal. -/
theorem not_better_point (hm : m.WellFormed) (h : Reaches (.exact maxPivots) deadline m.dense)
    (hending : (summit (.exact maxPivots) deadline m.dense).ending = .optimal) {y : String → ℚ}
    (hy : m.Feasible y) : ¬m.objective.sense.Better (m.value y)
      (m.value (m.valueAt (summit (.exact maxPivots) deadline m.dense).tableau.point)) := by
  have hready := ready_summit m.rectangular_dense h
  have hbest := not_better_summit m.rectangular_dense h hending (hm.feasible_columns hy)
  rw [m.dot_objective, m.dot_objective, hm.value_columns] at hbest
  rwa [valueAt_point hready.primal.toCanonical (hready.numVariables.trans m.numVariables_dense)]

/-- The point of a second phase that has made more pivots is at least as good. -/
theorem not_better_of_pivots_le (h : Reaches (.exact maxPivots) deadline m.dense)
    (h' : Reaches (.exact maxPivots') deadline' m.dense)
    (hle : (summit (.exact maxPivots) deadline m.dense).pivots ≤
      (summit (.exact maxPivots') deadline' m.dense).pivots) :
    ¬m.objective.sense.Better
      (m.value (m.valueAt (summit (.exact maxPivots) deadline m.dense).tableau.point))
      (m.value (m.valueAt (summit (.exact maxPivots') deadline' m.dense).tableau.point)) := by
  rw [Sense.better_iff, not_lt, (feasible_summit h).2, (feasible_summit h').2, neg_le_neg_iff]
  exact rhs_objective_summit_le m.rectangular_dense h h' hle

variable {clock : Clock ℚ} {limits : Limits ℚ}

/-- The answer of a run whose second phase is cut off. -/
theorem InterruptedSecond.solve_eq
    (h : InterruptedSecond (.exact maxPivots) (Simplex.deadline clock limits) m.dense) :
    solve (.exact maxPivots) clock m limits = .atPoint m .timeLimitReached
      (summit (.exact maxPivots) (Simplex.deadline clock limits) m.dense).tableau.point :=
  congrArg (Verdict.toSolution (.exact maxPivots) m) h.verdict_eq

/-- The objective value of an optimal answer. -/
theorem objective?_of_status_eq_optimal
    (h : (solve (.exact maxPivots) clock m limits).status = .optimal) :
    Reaches (.exact maxPivots) (Simplex.deadline clock limits) m.dense ∧
      (summit (.exact maxPivots) (Simplex.deadline clock limits) m.dense).ending = .optimal ∧
      (solve (.exact maxPivots) clock m limits).objective? = some (m.value (m.valueAt
        (summit (.exact maxPivots) (Simplex.deadline clock limits) m.dense).tableau.point)) := by
  rw [status_solve] at h
  obtain ⟨hreach, hending, hpoint⟩ := summit_of_status_eq_optimal h
  have hsolve : solve (.exact maxPivots) clock m limits = _ := toSolution_of_point? hpoint
  exact ⟨hreach, hending, by rw [hsolve]; rfl⟩

end Incumbent

/-- **Soundness of interruptions.** The time is over when the deadline has cut off a phase. The first
phase leaves no values. The second leaves values and activities that meet the model exactly, and an
objective value that is not better than that of an optimal answer to the model and not better than that
of an interrupted run that has made as many pivots there or more. -/
theorem interruption_sound {m : Model ℚ} (h : m.Accepted) (maxPivots : ℕ) (clock : Clock ℚ)
    (limits : Limits ℚ) :
    let d := deadline clock limits
    let answer := solve (.exact maxPivots) clock m limits
    (answer.status = .timeLimitReached ↔ InterruptedFirst (.exact maxPivots) d m.dense ∨
        InterruptedSecond (.exact maxPivots) d m.dense) ∧
      (InterruptedFirst (.exact maxPivots) d m.dense → answer = .bare .timeLimitReached) ∧
      (InterruptedSecond (.exact maxPivots) d m.dense → answer.Meets m 0 ∧
        ∃ z, answer.objective? = some z ∧
          ∀ (maxPivots' : ℕ) (clock' : Clock ℚ) (limits' : Limits ℚ),
            let d' := deadline clock' limits'
            let answer' := solve (.exact maxPivots') clock' m limits'
            answer'.status = .optimal ∨ InterruptedSecond (.exact maxPivots') d' m.dense ∧
                (summit (.exact maxPivots) d m.dense).pivots ≤
                  (summit (.exact maxPivots') d' m.dense).pivots →
              ∃ z', answer'.objective? = some z' ∧ ¬m.objective.sense.Better z z') := by
  intro d answer
  refine ⟨?_, fun hfirst => ?_, fun hsecond => ?_⟩
  · rw [status_solve]
    exact status_eq_timeLimitReached_iff
  · exact congrArg (Verdict.toSolution (.exact maxPivots) m) hfirst.verdict_eq
  · have hfeasible := (feasible_summit hsecond.1).1
    have hanswer : answer = _ := hsecond.solve_eq
    rw [hanswer]
    refine ⟨Solution.meets_atPoint h.wellFormed hfeasible, _, rfl, ?_⟩
    intro maxPivots' clock' limits' d' answer' hother
    rcases hother with hoptimal | ⟨hsecond', hle⟩
    · obtain ⟨hreach', hending', hobjective⟩ := objective?_of_status_eq_optimal hoptimal
      exact ⟨_, hobjective, not_better_point h.wellFormed hreach' hending' hfeasible⟩
    · have hanswer' : answer' = _ := hsecond'.solve_eq
      rw [hanswer']
      exact ⟨_, rfl, not_better_of_pivots_le hsecond.1 hsecond'.1 hle⟩

/-- Minimize `-2x - y` where `x + y ≥ 1`, `x ≤ 2` and `y ≤ 3`. -/
def producing : Model ℚ where
  vars := [⟨"x", .nonNegativeReals⟩, ⟨"y", .nonNegativeReals⟩]
  constraints :=
    [⟨"floor", ⟨[⟨"x", 1⟩, ⟨"y", 1⟩]⟩, .ge, 1⟩, ⟨"capX", ⟨[⟨"x", 1⟩]⟩, .le, 2⟩,
      ⟨"capY", ⟨[⟨"y", 1⟩]⟩, .le, 3⟩]
  objective := ⟨⟨[⟨"x", -2⟩, ⟨"y", -1⟩]⟩, .minimize⟩

theorem accepted_producing : producing.Accepted :=
  ⟨[.declare "x" .nonNegativeReals, .declare "y" .nonNegativeReals,
    .constrain "floor" [("x", 1), ("y", 1)] .ge 1, .constrain "capX" [("x", 1)] .le 2,
    .constrain "capY" [("y", 1)] .le 3, .pursue [("x", -2), ("y", -1)] .minimize], rfl⟩

/-- A clock on which every pivot of one phase takes a second, and the other phase takes no time. -/
def ticking (slow : Phase) : Clock ℚ :=
  fun seconds phase made => phase == slow && decide (seconds ≤ made)

/-- Without a second for the first phase there is nothing to report; with a second more for the second
phase the objective is not worse, and the optimal answer is not worse than both. -/
theorem interruption_sound_producing :
    solve (.exact 10) (ticking .first) producing ⟨none, some 0⟩ = .bare .timeLimitReached ∧
      ((solve (.exact 10) (ticking .second) producing ⟨none, some 0⟩).Meets producing 0 ∧
        (solve (.exact 10) (ticking .second) producing ⟨none, some 0⟩).objective? = some (-2)) ∧
      (∃ z', (solve (.exact 10) (ticking .second) producing ⟨none, some 1⟩).objective? = some z' ∧
        ¬producing.objective.sense.Better (-2) z') ∧
      ∃ z', (solve (.exact 10) (ticking .second) producing .unset).objective? = some z' ∧
        ¬producing.objective.sense.Better (-2) z' := by
  have hfirst : InterruptedFirst (.exact 10) (deadline (ticking .first) ⟨none, some 0⟩)
      producing.dense := by
    unfold InterruptedFirst
    decide +kernel
  have hsecond (seconds : ℚ) (h : seconds = 0 ∨ seconds = 1) : InterruptedSecond (.exact 10)
      (deadline (ticking .second) ⟨none, some seconds⟩) producing.dense := by
    unfold InterruptedSecond Reaches
    rcases h with rfl | rfl <;> decide +kernel
  obtain ⟨-, hbare, -⟩ := interruption_sound accepted_producing 10 (ticking .first) ⟨none, some 0⟩
  obtain ⟨-, -, hincumbent⟩ :=
    interruption_sound accepted_producing 10 (ticking .second) ⟨none, some 0⟩
  obtain ⟨hmeets, z, hz, hothers⟩ := hincumbent (hsecond 0 (.inl rfl))
  have hvalue : (solve (.exact 10) (ticking .second) producing ⟨none, some 0⟩).objective? =
      some (-2) := by decide +kernel
  have hz2 : z = -2 := Option.some.inj (hz.symm.trans hvalue)
  rw [hz2] at hothers
  refine ⟨hbare hfirst, ⟨hmeets, hvalue⟩, ?_, ?_⟩
  · exact hothers 10 (ticking .second) ⟨none, some 1⟩
      (.inr ⟨hsecond 1 (.inr rfl), by decide +kernel⟩)
  · exact hothers 10 (ticking .second) .unset (.inl (by decide +kernel))

end LinearProgram.Simplex
