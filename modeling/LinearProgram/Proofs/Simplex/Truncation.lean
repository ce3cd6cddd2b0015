import Mathlib
import LinearProgram.Proofs.Simplex.Interruption

/-!
# Limits cut runs short and change nothing else

A phase asks for its limits only where a column enters, after it has found that it is not through, and
what it has done by then does not depend on them. Under weaker limits it therefore does the same and goes
on where it was cut off (`climb_relax`). A run, whose second phase starts from what the first has left, is
either not touched by its deadline or cut off by it, and then stands at a place of the run without one
(`limits_only_truncate`). Nothing is assumed of the numbers.
-/

namespace LinearProgram.Simplex

open Tableau

variable {K : Type} [Scalar K]

/-- Under weaker limits a phase makes no pivot less, and is the same unless one of the limits that are now
weaker has cut it off. -/
theorem climb_relax {tolerance : K} {eligible : ℕ} {expired expired' : ℕ → Bool}
    (hexpired : ∀ k, expired' k = true → expired k = true) {left left' : ℕ} (hle : left ≤ left')
    (made : ℕ) (lowestIndex : Bool) (t : Tableau K) :
    let c := climb tolerance eligible expired left made lowestIndex t
    let c' := climb tolerance eligible expired' left' made lowestIndex t
    (c' = c ∨ c.ending = .timeLimit ∨ c.ending = .pivotLimit ∧ left < left') ∧ c.pivots ≤ c'.pivots := by
  induction left generalizing left' made lowestIndex t with
  | zero =>
    cases hcol : t.entering? tolerance eligible lowestIndex with
    | none =>
      rw [climb_converged hcol, climb_converged hcol]
      exact ⟨.inl rfl, le_rfl⟩
    | some col =>
      rw [climb_pivotLimit hcol]
      refine ⟨?_, Nat.zero_le _⟩
      rcases Nat.eq_zero_or_pos left' with rfl | hpos
      · exact .inl (climb_pivotLimit hcol)
      · exact .inr (.inr ⟨rfl, hpos⟩)
  | succ left ih =>
    obtain ⟨left', rfl⟩ := Nat.exists_eq_add_of_le' (Nat.le_of_add_left_le hle)
    cases hcol : t.entering? tolerance eligible lowestIndex with
    | none =>
      rw [climb_converged hcol, climb_converged hcol]
      exact ⟨.inl rfl, le_rfl⟩
    | some col =>
      cases hexp : expired made with
      | true =>
        rw [climb_timeLimit hcol hexp]
        exact ⟨.inr (.inl rfl), Nat.zero_le _⟩
      | false =>
        have hexp' : expired' made = false :=
          Bool.eq_false_iff.mpr fun h => Bool.false_ne_true (hexp.symm.trans (hexpired made h))
        cases hrow : t.leaving? tolerance col with
        | none =>
          rw [climb_unbounded hcol hexp hrow, climb_unbounded hcol hexp' hrow]
          exact ⟨.inl rfl, le_rfl⟩
        | some row =>
          obtain ⟨hsame, hpivots⟩ := ih (Nat.le_of_succ_le_succ hle) (made + 1)
            (isDegenerate tolerance t row) (t.pivot row col)
          have hpivot : (Step.pivot row col (isDegenerate tolerance t row)).isPivot = true := rfl
          rw [climb_pivot hcol hexp hrow, climb_pivot hcol hexp' hrow]
          simp only [Climb.pivots_cons hpivot]
          refine ⟨?_, Nat.succ_le_succ hpivots⟩
          rcases hsame with heq | htime | ⟨hlimit, hlt⟩
          · exact .inl (by rw [heq])
          · exact .inr (.inl htime)
          · exact .inr (.inr ⟨hlimit, Nat.succ_lt_succ hlt⟩)

/-- A phase that neither the deadline has cut off nor, if more of them are allowed now, the number of
pivots. -/
structure Climb.Uncut (N M : ℕ) (c : Climb K) : Prop where
  time : c.ending ≠ .timeLimit
  pivots : c.ending = .pivotLimit → M = N

/-- Without a deadline a phase makes no pivot less, and is the same unless it was cut off. -/
theorem climb_of_uncut {tolerance : K} {eligible : ℕ} {expired : ℕ → Bool} {N M : ℕ} (hle : N ≤ M)
    (made : ℕ) (lowestIndex : Bool) (t : Tableau K) :
    let c := climb tolerance eligible expired N made lowestIndex t
    let c' := climb tolerance eligible (fun _ => false) M made lowestIndex t
    (c.Uncut N M → c' = c) ∧ c.pivots ≤ c'.pivots := by
  intro c c'
  obtain ⟨hsame, hpivots⟩ : (c' = c ∨ c.ending = .timeLimit ∨ c.ending = .pivotLimit ∧ N < M) ∧
      c.pivots ≤ c'.pivots :=
    climb_relax (fun _ hnever => absurd hnever Bool.false_ne_true) hle made lowestIndex t
  refine ⟨fun h => ?_, hpivots⟩
  rcases hsame with heq | hcut | ⟨hcut, hlt⟩
  · exact heq
  · exact absurd hcut h.time
  · exact absurd (h.pivots hcut) hlt.ne'

/-! ## Two runs -/

section Runs

variable {s s' : Settings K} {d d' : Deadline} {p : DenseProgram K}

/-- Runs with the same first phase, if they need one, come to the same second one. -/
theorem reaches_congr (htolerance : s'.tolerance = s.tolerance)
    (hascent : (ofProgram p).numArtificial ≠ 0 → ascent s' d' p = ascent s d p) :
    Reaches s' d' p ↔ Reaches s d p := by
  refine or_congr_right' fun hart => ?_
  rw [hascent hart, htolerance]

theorem ready_congr (htolerance : s'.tolerance = s.tolerance)
    (hascent : (ofProgram p).numArtificial ≠ 0 → ascent s' d' p = ascent s d p) :
    ready s' d' p = ready s d p := by
  unfold ready
  by_cases hart : (ofProgram p).numArtificial = 0
  · rw [if_pos hart, if_pos hart]
  · rw [if_neg hart, if_neg hart, hascent hart, handOver, handOver, htolerance]

theorem verdict_congr (htolerance : s'.tolerance = s.tolerance)
    (hascent : (ofProgram p).numArtificial ≠ 0 → ascent s' d' p = ascent s d p)
    (hsummit : Reaches s d p → summit s' d' p = summit s d p) :
    (run s' d' p).verdict = (run s d p).verdict := by
  have hreaches := reaches_congr htolerance hascent
  by_cases hreach : Reaches s d p
  · rw [verdict_of_reaches hreach, verdict_of_reaches (hreaches.mpr hreach), hsummit hreach]
  · have hart : (ofProgram p).numArtificial ≠ 0 := fun hart => hreach (.inl hart)
    rw [verdict_of_not_reaches hreach, verdict_of_not_reaches (mt hreaches.mp hreach), hascent hart]

end Runs

/-- A run is answered by an error exactly if one of its phases has run out of pivots. -/
theorem status_eq_error_iff {s : Settings K} {d : Deadline} {p : DenseProgram K} :
    (run s d p).verdict.status = .error ↔
      (ofProgram p).numArtificial ≠ 0 ∧ (ascent s d p).ending = .pivotLimit ∨
        Reaches s d p ∧ (summit s d p).ending = .pivotLimit := by
  by_cases hreach : Reaches s d p
  · have hfirst : ¬((ofProgram p).numArtificial ≠ 0 ∧ (ascent s d p).ending = .pivotLimit) := by
      rintro ⟨hart, hending⟩
      exact Ending.noConfusion (hending.symm.trans (hreach.resolve_left hart).1)
    rw [verdict_of_reaches hreach, Climb.verdict, or_iff_right hfirst, and_iff_right hreach]
    cases (summit s d p).ending <;> simp [Verdict.status]
  · have hart : (ofProgram p).numArtificial ≠ 0 := fun hart => hreach (.inl hart)
    rw [verdict_of_not_reaches hreach, or_iff_left fun h => hreach h.1, and_iff_right hart]
    cases (ascent s d p).ending <;> simp [Verdict.status]

section Limits

variable {tolerance : K} {N M : ℕ} {d : Deadline} {p : DenseProgram K}

theorem ascent_eq_of_uncut (hle : N ≤ M) (h : (ascent ⟨N, tolerance⟩ d p).Uncut N M) :
    ascent ⟨M, tolerance⟩ .never p = ascent ⟨N, tolerance⟩ d p :=
  (climb_of_uncut hle 0 false (firstStage p).tableau).1 h

/-- Where both runs come to the same second phase, the one without a deadline makes no pivot less there. -/
theorem summit_relax (hle : N ≤ M) (hready : ready ⟨M, tolerance⟩ .never p = ready ⟨N, tolerance⟩ d p) :
    ((summit ⟨N, tolerance⟩ d p).Uncut N M →
        summit ⟨M, tolerance⟩ .never p = summit ⟨N, tolerance⟩ d p) ∧
      (summit ⟨N, tolerance⟩ d p).pivots ≤ (summit ⟨M, tolerance⟩ .never p).pivots := by
  unfold summit
  rw [hready]
  exact climb_of_uncut hle 0 false (ready ⟨N, tolerance⟩ d p)

/-- A run that no limit has cut off comes to the same verdict when limits are weaker. -/
theorem verdict_eq_of_uncut (hle : N ≤ M)
    (hfirst : (ofProgram p).numArtificial ≠ 0 → (ascent ⟨N, tolerance⟩ d p).Uncut N M)
    (hsecond : Reaches ⟨N, tolerance⟩ d p → (summit ⟨N, tolerance⟩ d p).Uncut N M) :
    (run ⟨M, tolerance⟩ .never p).verdict = (run ⟨N, tolerance⟩ d p).verdict := by
  have hascent := fun hart => ascent_eq_of_uncut hle (hfirst hart)
  exact verdict_congr rfl hascent fun hreach =>
    (summit_relax hle (ready_congr rfl hascent)).1 (hsecond hreach)

/-- The run without a deadline comes to its second phase, makes at least `k` pivots there, and has the
basic solution `x` after them. -/
structure Passes (s : Settings K) (p : DenseProgram K) (k : ℕ) (x : List K) : Prop where
  reaches : Reaches s .never p
  le_pivots : k ≤ (summit s .never p).pivots
  point : ((secondStage s .never p).after s.tolerance (ready s .never p).firstArtificial k).tableau.point = x

/-- A second phase that the deadline cuts off stands where the run without a deadline passes. -/
theorem InterruptedSecond.passes {s : Settings K} (h : InterruptedSecond s d p) :
    Passes s p (summit s d p).pivots (summit s d p).tableau.point := by
  have hascent (hart : (ofProgram p).numArtificial ≠ 0) : ascent s .never p = ascent s d p :=
    ascent_eq_of_uncut le_rfl ⟨by simp [(h.1.resolve_left hart).1], fun _ => rfl⟩
  have hready : ready s .never p = ready s d p := ready_congr rfl hascent
  refine ⟨(reaches_congr rfl hascent).mpr h.1, (summit_relax le_rfl hready).2, ?_⟩
  rw [(course_summit s d p).tableau, secondStage, secondStage, hready]

/-! ### Runs without pivots -/

/-- No phase of a run on the program needs a pivot: no column enters the basis that it starts from. -/
structure Settled (tolerance : K) (p : DenseProgram K) : Prop where
  first : (ofProgram p).numArtificial ≠ 0 →
    (firstStage p).tableau.entering? tolerance (ofProgram p).numColumns false = none
  second : Reaches ⟨0, tolerance⟩ .never p → (ready ⟨0, tolerance⟩ .never p).entering? tolerance
    (ready ⟨0, tolerance⟩ .never p).firstArtificial false = none

namespace Settled

variable (h : Settled tolerance p)
include h

theorem ascent_eq (hart : (ofProgram p).numArtificial ≠ 0) (N : ℕ) (d : Deadline) :
    ascent ⟨N, tolerance⟩ d p = ⟨.optimal, (firstStage p).tableau, [.converged 0]⟩ :=
  climb_converged (h.first hart)

/-- Such a run asks for no limit, so that all of them come to one verdict. -/
theorem verdict_eq (N : ℕ) (d : Deadline) :
    (run ⟨N, tolerance⟩ d p).verdict = (run ⟨0, tolerance⟩ .never p).verdict := by
  have hascent (hart : (ofProgram p).numArtificial ≠ 0) :
      ascent ⟨N, tolerance⟩ d p = ascent ⟨0, tolerance⟩ .never p := by
    rw [h.ascent_eq hart, h.ascent_eq hart]
  have hready : ready ⟨N, tolerance⟩ d p = ready ⟨0, tolerance⟩ .never p := ready_congr rfl hascent
  refine verdict_congr rfl hascent fun hreach => ?_
  rw [summit, summit, hready, climb_converged (h.second hreach), climb_converged (h.second hreach)]

/-- That verdict is conclusive. -/
theorem status_mem :
    (run ⟨0, tolerance⟩ .never p).verdict.status ∈ [Status.optimal, .infeasible] := by
  by_cases hreach : Reaches ⟨0, tolerance⟩ .never p
  · rw [verdict_of_reaches hreach, summit, climb_converged (h.second hreach)]
    exact .head _
  · rw [verdict_of_not_reaches hreach, h.ascent_eq fun hart => hreach (.inl hart)]
    exact .tail _ (.head _)

end Settled

end Limits

/-! ## Answers -/

/-- Only the message of an error depends on the settings. -/
theorem toSolution_congr {m : Model K} {v : Verdict K} (h : v.status ≠ .error) (s s' : Settings K) :
    v.toSolution s' m = v.toSolution s m := by
  cases v with
  | pivotLimit => exact absurd rfl h
  | _ => rfl

section Answers

variable {m : Model K} {tolerance : K} {N : ℕ} {clock : Clock K} {limits : Limits K}

/-- Without a limit on time there is no deadline. -/
theorem solve_of_untimed {s : Settings K} (h : limits.time? = none) :
    solve s clock m limits = (run s .never m.dense).verdict.toSolution s m := by
  rw [solve, runOn, deadline, h]

/-- An answer that no limit has cut off stays the same when limits are weaker. -/
theorem solve_of_conclusive (herror : (solve ⟨N, tolerance⟩ clock m limits).status ≠ .error)
    (htime : (solve ⟨N, tolerance⟩ clock m limits).status ≠ .timeLimitReached) {M : ℕ} (hM : N ≤ M) :
    (run ⟨M, tolerance⟩ .never m.dense).verdict.toSolution ⟨M, tolerance⟩ m =
      solve ⟨N, tolerance⟩ clock m limits := by
  rw [status_solve] at herror htime
  have hverdict : (run ⟨M, tolerance⟩ .never m.dense).verdict =
      (run ⟨N, tolerance⟩ (deadline clock limits) m.dense).verdict := by
    rw [ne_eq, status_eq_error_iff, not_or, not_and, not_and] at herror
    rw [ne_eq, status_eq_timeLimitReached_iff, not_or, InterruptedFirst, InterruptedSecond, not_and,
      not_and] at htime
    exact verdict_eq_of_uncut hM
      (fun hart => ⟨htime.1 hart, fun hpivots => absurd hpivots (herror.1 hart)⟩)
      fun hreach => ⟨htime.2 hreach, fun hpivots => absurd hpivots (herror.2 hreach)⟩
  rw [hverdict]
  exact toSolution_congr herror _ _

/-- A deadline that cuts off neither phase makes no difference. -/
theorem verdict_of_not_interrupted {d : Deadline} {s : Settings K} (hfirst : ¬InterruptedFirst s d m.dense)
    (hsecond : ¬InterruptedSecond s d m.dense) :
    (run s .never m.dense).verdict = (run s d m.dense).verdict := by
  rw [InterruptedFirst, not_and] at hfirst
  rw [InterruptedSecond, not_and] at hsecond
  exact verdict_eq_of_uncut le_rfl (fun hart => ⟨hfirst hart, fun _ => rfl⟩)
    fun hreach => ⟨hsecond hreach, fun _ => rfl⟩

theorem Settled.status_solve_mem (h : Settled tolerance m.dense) :
    (solve ⟨N, tolerance⟩ clock m limits).status ∈ [Status.optimal, .infeasible] := by
  rw [status_solve, h.verdict_eq]
  exact h.status_mem

theorem Settled.solve_eq (h : Settled tolerance m.dense) (M : ℕ) (clock' : Clock K)
    (limits' : Limits K) :
    solve ⟨M, tolerance⟩ clock' m limits' = solve ⟨N, tolerance⟩ clock m limits := by
  have herror : (run ⟨N, tolerance⟩ (deadline clock limits) m.dense).verdict.status ≠ .error := by
    intro heq
    have hmem : (solve ⟨N, tolerance⟩ clock m limits).status ∈ [Status.optimal, .infeasible] :=
      h.status_solve_mem
    simp [status_solve, heq] at hmem
  rw [solve, runOn, h.verdict_eq, ← h.verdict_eq N (deadline clock limits)]
  exact toSolution_congr herror _ _

end Answers

/-- **Limits only cut runs short.** An answer that no limit has cut off is the answer without a limit on
time and with as many pivots or more. With the same pivots, the answer under a limit on time is the one
without it; or the time is over in the first phase and there is no point; or it is over in the second, and
the point is the one that the run without the limit has after as many pivots of its second phase. A
program that needs no pivot is answered alike under all limits. -/
theorem limits_only_truncate (m : Model K) (tolerance : K) (N : ℕ) (clock : Clock K) (limits : Limits K) :
    let d := deadline clock limits
    let answer := solve ⟨N, tolerance⟩ clock m limits
    (answer.status ≠ .error → answer.status ≠ .timeLimitReached →
      ∀ M ≥ N, ∀ (clock' : Clock K) (limits' : Limits K), limits'.time? = none →
        solve ⟨M, tolerance⟩ clock' m limits' = answer) ∧
    ((∀ (clock' : Clock K) (limits' : Limits K), limits'.time? = none →
        solve ⟨N, tolerance⟩ clock' m limits' = answer) ∨
      InterruptedFirst ⟨N, tolerance⟩ d m.dense ∧ answer = .bare .timeLimitReached ∨
      InterruptedSecond ⟨N, tolerance⟩ d m.dense ∧
        ∃ x, Passes ⟨N, tolerance⟩ m.dense (summit ⟨N, tolerance⟩ d m.dense).pivots x ∧
          answer = .atPoint m .timeLimitReached x) ∧
    (Settled tolerance m.dense → answer.status ∈ [Status.optimal, .infeasible] ∧
      ∀ (M : ℕ) (clock' : Clock K) (limits' : Limits K),
        solve ⟨M, tolerance⟩ clock' m limits' = answer) := by
  intro d answer
  refine ⟨fun herror htime M hM clock' limits' hlimits => ?_, ?_, fun h => ?_⟩
  · rw [solve_of_untimed hlimits]
    exact solve_of_conclusive herror htime hM
  · by_cases hfirst : InterruptedFirst ⟨N, tolerance⟩ d m.dense
    · exact .inr (.inl ⟨hfirst, congrArg (Verdict.toSolution _ m) hfirst.verdict_eq⟩)
    · by_cases hsecond : InterruptedSecond ⟨N, tolerance⟩ d m.dense
      · exact .inr (.inr ⟨hsecond, _, hsecond.passes, congrArg (Verdict.toSolution _ m) hsecond.verdict_eq⟩)
      · refine .inl fun clock' limits' hlimits => ?_
        rw [solve_of_untimed hlimits, verdict_of_not_interrupted hfirst hsecond]
        rfl
  · exact ⟨h.status_solve_mem, fun M clock' limits' => h.solve_eq M clock' limits'⟩

/-- Minimize `x` where nothing is asked of it but that `0 = 0`. -/
def resting : Model ℚ where
  vars := [⟨"x", .nonNegativeReals⟩]
  constraints := [⟨"idle", ⟨[]⟩, .eq, 0⟩]
  objective := ⟨⟨[⟨"x", 1⟩]⟩, .minimize⟩

/-- Five seconds for a phase that needs less than five pivots, one second for a phase that needs two, and
no pivot and no time for a program that needs none. -/
theorem limits_only_truncate_producing :
    solve ⟨1000, 0⟩ (ticking .second) producing .unset =
        solve ⟨10, 0⟩ (ticking .first) producing ⟨none, some 5⟩ ∧
      (∃ x, Passes ⟨10, 0⟩ producing.dense 1 x ∧
        solve ⟨10, 0⟩ (ticking .second) producing ⟨none, some 1⟩ =
          .atPoint producing .timeLimitReached x) ∧
      solve ⟨1000, 0⟩ (ticking .first) resting .unset =
        solve ⟨0, 0⟩ (ticking .first) resting ⟨none, some 0⟩ := by
  have hfirst := limits_only_truncate producing 0 10 (ticking .first) ⟨none, some 5⟩
  have hsecond := limits_only_truncate producing 0 10 (ticking .second) ⟨none, some 1⟩
  have hresting := limits_only_truncate resting 0 0 (ticking .first) ⟨none, some 0⟩
  have hsettled : Settled 0 resting.dense := ⟨by decide +kernel, by unfold Reaches; decide +kernel⟩
  refine ⟨hfirst.1 (by decide +kernel) (by decide +kernel) 1000 (by norm_num) _ _ rfl, ?_,
    (hresting.2.2 hsettled).2 1000 _ _⟩
  rcases hsecond.2.1 with huntimed | ⟨hinterrupted, -⟩ | ⟨-, hpasses⟩
  · exact absurd (congrArg Solution.status (huntimed (ticking .second) .unset rfl)) (by decide +kernel)
  · exact absurd hinterrupted.2 (by decide +kernel)
  · have hpivots : (summit ⟨10, 0⟩ (deadline (ticking .second) ⟨none, some 1⟩) producing.dense).pivots =
        1 := by decide +kernel
    rwa [hpivots] at hpasses

end LinearProgram.Simplex
