import Mathlib
import LinearProgram.Simplex.Solver
import LinearProgram.Proofs.Host.Record
import LinearProgram.Proofs.Simplex.Climb

/-!
# Runs that look at the machine's clock

The method looks at the clock before every pivot. The times that it reads stand in the record of what the
machine was asked (`Readings`), and they make a clock of their own, on which the run without a machine finds
the same (`recorded_solver`). So what holds of the run on every clock holds of the solver on every machine.

A time that was not read counts as late on that clock. A run that goes on without looking at the machine's
clock is therefore not the run on the clock of its own readings.

On a machine whose clock stands still nothing depends on what is read, and the solver comes down to `solve` and
`events` (`solver_of_still`).
-/

namespace LinearProgram.Simplex

/-- The times that a solve has read: when it began, and then before the pivots of each phase. -/
structure Readings where
  start : ℕ
  first : List ℕ
  second : List ℕ

/-- Whether a deadline has passed at a time. Where no time was read, it has. -/
def late (deadline? : Option ℕ) (time? : Option ℕ) : Bool :=
  deadline?.any fun deadline => time?.all fun time => deadline ≤ time

namespace Readings

/-- The readings of a phase. -/
def times (r : Readings) : Phase → List ℕ
  | .first => r.first
  | .second => r.second

/-- The readings as they stand in a record. -/
def transactions (r : Readings) : List Transaction :=
  .now r.start :: (r.first ++ r.second).map .now

/-- The clock that shows the times that were read. -/
def clock (r : Readings) : Clock Float :=
  fun seconds phase made => late (deadline? r.start seconds) (r.times phase)[made]?

end Readings

/-! ## The phases -/

section Phases

variable {σ K : Type} [Scalar K] (host : Host (StateM σ)) (deadline? : Option ℕ)

/-- Without a deadline the clock is not looked at; with one it is read once, and the time read decides. -/
theorem recorded_passed :
    Recorded (host.recorded.passed deadline?) (host.passed deadline?) fun new passed =>
      deadline? = none ∧ new = [] ∧ passed = false ∨
        ∃ time, new = [.now time] ∧ passed = late deadline? (some time) := by
  cases deadline? with
  | none => exact .pure (.inl ⟨rfl, rfl, rfl⟩)
  | some deadline =>
    refine (Recorded.noting .now host.now).bind fun new time hnew => ?_
    subst hnew
    exact .pure (.inr ⟨time, rfl, rfl⟩)

/-- A phase on a machine is the phase on every clock that shows, from the first pivot on, the times that the
phase has read. -/
theorem recorded_climb (tolerance : K) (eligible left made : ℕ) (lowestIndex : Bool) (t : Tableau K) :
    Recorded (climbM tolerance eligible (fun _ => host.recorded.passed deadline?) left made lowestIndex t)
      (climbM tolerance eligible (fun _ => host.passed deadline?) left made lowestIndex t)
      fun new c => ∃ times : List ℕ, new = times.map .now ∧
        ∀ expired : ℕ → Bool, (∀ i, expired (made + i) = late deadline? times[i]?) →
          c = climb tolerance eligible expired left made lowestIndex t := by
  induction left generalizing made lowestIndex t with
  | zero =>
    unfold climbM
    cases hcol : t.entering? tolerance eligible lowestIndex with
    | none => exact .pure ⟨[], rfl, fun _ _ => (climb_converged hcol).symm⟩
    | some col => exact .pure ⟨[], rfl, fun _ _ => (climb_pivotLimit hcol).symm⟩
  | succ left ih =>
    unfold climbM
    cases hcol : t.entering? tolerance eligible lowestIndex with
    | none => exact .pure ⟨[], rfl, fun _ _ => (climb_converged hcol).symm⟩
    | some col =>
    refine (recorded_passed host deadline?).bind fun new passed hnew => ?_
    -- What was read before this pivot, which is nothing where there is no deadline.
    obtain ⟨now, rfl, hnow⟩ : ∃ now : List ℕ, new = now.map .now ∧
        ∀ (later : List ℕ) (expired : ℕ → Bool),
          (∀ i, expired (made + i) = late deadline? (now ++ later)[i]?) →
            expired made = passed ∧ ∀ i, expired (made + 1 + i) = late deadline? later[i]? := by
      rcases hnew with ⟨rfl, rfl, rfl⟩ | ⟨time, rfl, rfl⟩
      · exact ⟨[], rfl, fun _ _ h => ⟨h 0, fun i => (congrArg _ (Nat.add_assoc ..)).trans (h (1 + i))⟩⟩
      · refine ⟨[time], rfl, fun later expired h => ⟨h 0, fun i => ?_⟩⟩
        rw [Nat.add_right_comm]
        exact h (i + 1)
    cases passed with
    | true =>
      refine .pure ⟨now, List.append_nil _, fun expired h => (climb_timeLimit hcol ?_).symm⟩
      exact (hnow [] expired (by rwa [List.append_nil])).1
    | false =>
    simp only [Bool.false_eq_true, if_false]
    cases hrow : t.leaving? tolerance col with
    | none =>
      refine .pure ⟨now, List.append_nil _, fun expired h => (climb_unbounded hcol ?_ hrow).symm⟩
      exact (hnow [] expired (by rwa [List.append_nil])).1
    | some row =>
    refine (ih (made + 1) _ _).bind fun new' rest hrest => ?_
    obtain ⟨later, rfl, hlater⟩ := hrest
    refine .pure ⟨now ++ later, by simp, fun expired h => ?_⟩
    obtain ⟨hexp, hexp'⟩ := hnow later expired h
    rw [climb_pivot hcol hexp hrow, hlater expired hexp']

theorem recorded_firstPhase (s : Settings K) (t : Tableau K) :
    Recorded (firstPhaseM s (fun _ _ => host.recorded.passed deadline?) t)
      (firstPhaseM s (fun _ _ => host.passed deadline?) t)
      fun new c => ∃ times : List ℕ, new = times.map .now ∧
        ∀ deadline : Deadline, (∀ i, deadline .first i = late deadline? times[i]?) →
          c = firstPhase s deadline t := by
  refine (recorded_climb host deadline? s.tolerance t.numColumns s.maxPivots 0 false _).mono ?_
  rintro new c ⟨times, rfl, htimes⟩
  refine ⟨times, rfl, fun deadline h => htimes (deadline .first) fun i => ?_⟩
  rw [Nat.zero_add, h]

theorem recorded_secondPhase (s : Settings K) (t : Tableau K) :
    Recorded (secondPhaseM s (fun _ _ => host.recorded.passed deadline?) t)
      (secondPhaseM s (fun _ _ => host.passed deadline?) t)
      fun new found => ∃ times : List ℕ, new = times.map .now ∧
        ∀ deadline : Deadline, (∀ i, deadline .second i = late deadline? times[i]?) →
          found = secondPhase s deadline t := by
  refine (recorded_climb host deadline? s.tolerance t.firstArtificial s.maxPivots 0 false t).bind ?_
  rintro new c ⟨times, rfl, htimes⟩
  refine .pure ⟨times, List.append_nil _, fun deadline h => ?_⟩
  rw [htimes (deadline .second) fun i => by rw [Nat.zero_add, h]]
  rfl

/-- Both phases on a machine are both phases under every deadline that passes at the times which they have
read. -/
theorem recorded_run (s : Settings K) (p : DenseProgram K) :
    Recorded (runM s (fun _ _ => host.recorded.passed deadline?) p)
      (runM s (fun _ _ => host.passed deadline?) p)
      fun new found => ∃ first second : List ℕ, new = (first ++ second).map .now ∧
        ∀ deadline : Deadline, (∀ i, deadline .first i = late deadline? first[i]?) →
          (∀ i, deadline .second i = late deadline? second[i]?) → found = run s deadline p := by
  simp only [run_eq]
  unfold runM
  by_cases hnone : (Tableau.ofProgram p).numArtificial = 0
  · simp only [if_pos hnone]
    refine (recorded_secondPhase host deadline? s _).mono ?_
    rintro new found ⟨second, rfl, hsecond⟩
    exact ⟨[], second, rfl, fun deadline _ h => hsecond deadline h⟩
  simp only [if_neg hnone]
  refine (recorded_firstPhase host deadline? s _).bind ?_
  rintro new c ⟨first, rfl, hfirst⟩
  -- In all cases but one the run ends with its first phase.
  have hends {verdict : Verdict K} (hverdict : ∀ deadline : Deadline,
      c = firstPhase s deadline (.ofProgram p) → run s deadline p = ⟨verdict, c.steps⟩) :
      ∃ first' second : List ℕ, first.map Transaction.now ++ [] = (first' ++ second).map .now ∧
        ∀ deadline : Deadline, (∀ i, deadline .first i = late deadline? first'[i]?) →
          (∀ i, deadline .second i = late deadline? second[i]?) →
            (⟨verdict, c.steps⟩ : Run K) = run s deadline p :=
    ⟨first, [], by simp, fun deadline h _ => (hverdict deadline (hfirst deadline h)).symm⟩
  simp only [run_eq, if_neg hnone] at hends
  cases hending : c.ending with
  | unbounded => exact .pure (hends fun deadline h => by rw [← h]; simp only [hending])
  | timeLimit => exact .pure (hends fun deadline h => by rw [← h]; simp only [hending])
  | pivotLimit => exact .pure (hends fun deadline h => by rw [← h]; simp only [hending])
  | optimal =>
  by_cases hvanish : c.tableau.artificialsVanish s.tolerance = true
  · simp only [if_pos hvanish]
    refine (recorded_secondPhase host deadline? s _).bind ?_
    rintro new found ⟨second, rfl, hsecond⟩
    refine .pure ⟨first, second, by simp, fun deadline h h' => ?_⟩
    rw [← hfirst deadline h, hsecond deadline h']
    simp only [hending, if_pos hvanish]
  · simp only [if_neg hvanish]
    exact .pure (hends fun deadline h => by rw [← h]; simp only [hending, if_neg hvanish])

end Phases

/-- **A solve on a machine is a solve on the clock of its readings.** It asks for the time and for nothing else,
and it always answers. -/
theorem recorded_solver {σ : Type} (host : Host (StateM σ)) (s : Settings Float) (m : Model Float)
    (limits : Limits Float) :
    Recorded ((solver host.recorded s).solve m limits) ((solver host s).solve m limits)
      fun new answer => ∃ r : Readings, new = r.transactions ∧ answer = .ok (solve s r.clock m limits) := by
  refine (Recorded.noting .now host.now).bind fun new start hnew => ?_
  subst hnew
  refine (Recorded.forM _ host.log).bind fun new _ hnew => ?_
  subst hnew
  refine (recorded_run host (limits.time?.bind (deadline? start)) s m.dense).bind ?_
  rintro new found ⟨first, second, rfl, hrun⟩
  refine (Recorded.forM _ fun step => host.log (.simplex step)).bind fun new _ hnew => ?_
  subst hnew
  refine (Recorded.unnoted _).bind fun new _ hnew => ?_
  subst hnew
  let r : Readings := ⟨start, first, second⟩
  have hdeadline (phase : Phase) (i : ℕ) : deadline r.clock limits phase i =
      late (limits.time?.bind (deadline? start)) (r.times phase)[i]? := by
    cases htime : limits.time? with
    | none => simp [deadline, htime, Deadline.never, late]
    | some seconds => simp [deadline, htime, Readings.clock, r]
  refine .pure ⟨r, by simp [Readings.transactions, r], ?_⟩
  rw [hrun _ (hdeadline .first) (hdeadline .second)]
  rfl

/-! ## A clock that stands still -/

section Still

variable {K : Type} [Scalar K] {m : Type → Type} [Monad m] [LawfulMonad m]

theorem climbM_pure (tolerance : K) (eligible : ℕ) (expired : ℕ → Bool) (left made : ℕ) (lowestIndex : Bool)
    (t : Tableau K) :
    climbM tolerance eligible (fun made => pure (expired made)) left made lowestIndex t =
      (pure (climb tolerance eligible expired left made lowestIndex t) : m (Climb K)) := by
  induction left generalizing made lowestIndex t with
  | zero =>
    unfold climbM
    cases hcol : t.entering? tolerance eligible lowestIndex with
    | none => rw [climb_converged hcol]
    | some col => rw [climb_pivotLimit hcol]
  | succ left ih =>
    unfold climbM
    cases hcol : t.entering? tolerance eligible lowestIndex with
    | none => rw [climb_converged hcol]
    | some col =>
    cases hexp : expired made with
    | true => simp only [pure_bind, if_true, climb_timeLimit hcol hexp]
    | false =>
    cases hrow : t.leaving? tolerance col with
    | none =>
      simp only [hrow, pure_bind, Bool.false_eq_true, if_false, climb_unbounded hcol hexp hrow]
    | some row =>
      simp only [hrow, ih, pure_bind, Bool.false_eq_true, if_false, climb_pivot hcol hexp hrow]

/-- Where the answers are known, the method does nothing but compute, whatever its surroundings. -/
theorem runM_pure (s : Settings K) (deadline : Deadline) (p : DenseProgram K) :
    runM s (fun phase made => pure (deadline phase made)) p = (pure (run s deadline p) : m (Run K)) := by
  have hsecond (t : Tableau K) : secondPhaseM s (fun phase made => pure (deadline phase made)) t =
      (pure (secondPhase s deadline t) : m (Run K)) := by
    simp only [secondPhaseM, climbM_pure, pure_bind, secondPhase_eq]
  have hfirst (t : Tableau K) : firstPhaseM s (fun phase made => pure (deadline phase made)) t =
      (pure (firstPhase s deadline t) : m (Climb K)) := climbM_pure ..
  rw [run_eq]
  unfold runM
  simp only [hsecond, hfirst, pure_bind]
  split
  · rfl
  · cases (firstPhase s deadline (.ofProgram p)).ending with
    | optimal => dsimp only; split <;> rfl
    | unbounded | timeLimit | pivotLimit => rfl

/-- **On a clock that stands still the solver is a function.** It reports what is to be reported and answers
with what it finds on `Clock.instant`. -/
theorem solver_of_still {host : Host m} {time : ℕ} (hnow : host.now = pure time) (htime : time < endOfTime)
    (s : Settings Float) (model : Model Float) (limits : Limits Float) :
    (solver host s).solve model limits = do
      (events s .instant model limits).forM host.log
      return .ok (solve s .instant model limits) := by
  have hpassed (d? : Option ℕ) : host.passed d? = pure (late d? (some time)) := by
    cases d? with
    | none => rfl
    | some d => simp [Host.passed, hnow, late]
  have hdeadline (phase : Phase) (made : ℕ) : late (limits.time?.bind (deadline? time)) (some time) =
      deadline .instant limits phase made := by
    cases hbudget : limits.time? with
    | none => simp [deadline, hbudget, Deadline.never, late]
    | some seconds =>
      simp only [deadline, hbudget, Clock.instant, Option.bind_some, deadline?, late]
      cases nanoseconds? seconds with
      | none => simp
      | some budget =>
        by_cases hend : time + budget < endOfTime
        · simp [if_pos hend]
        · have hbudget : budget ≠ 0 := by omega
          simp [if_neg hend, hbudget]
  have hrun : runM s (fun _ _ => host.passed (limits.time?.bind (deadline? time))) model.dense =
      pure (runOn s .instant model limits) := by
    simp only [hpassed, runOn]
    rw [← runM_pure]
    simp only [← hdeadline]
  simp [solver, hnow, hrun, events, solve]

end Still
end LinearProgram.Simplex
