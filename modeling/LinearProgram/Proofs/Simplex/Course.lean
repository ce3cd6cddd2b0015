import LinearProgram.Simplex.Solver

/-!
# The course of a run

A run ends in its first phase, or it comes to the second one and ends as that does. What the second
phase starts from and how it ends have names of their own here, so that statements on verdicts need not
open `run` again.
-/

namespace LinearProgram.Simplex

variable {K : Type}

/-- The status that a verdict is answered with. -/
def Verdict.status : Verdict K → Status
  | .optimal _ => .optimal
  | .infeasible => .infeasible
  | .unbounded => .unbounded
  | .timeLimit _ => .timeLimitReached
  | .pivotLimit => .error

/-- The point that a verdict comes with. -/
def Verdict.point? : Verdict K → Option (List K)
  | .optimal point => some point
  | .timeLimit incumbent? => incumbent?
  | .infeasible | .unbounded | .pivotLimit => none

section Run

variable [Scalar K] {s : Settings K} {deadline : Deadline} {p : DenseProgram K}

/-- The first phase of a run. -/
def ascent (s : Settings K) (deadline : Deadline) (p : DenseProgram K) : Climb K :=
  firstPhase s deadline (Tableau.ofProgram p)

/-- The verdict that the ending of the second phase stands for. -/
def Climb.verdict (c : Climb K) : Verdict K :=
  match c.ending with
  | .optimal => .optimal c.tableau.point
  | .unbounded => .unbounded
  | .timeLimit => .timeLimit (some c.tableau.point)
  | .pivotLimit => .pivotLimit

theorem verdict_secondPhase (t : Tableau K) : (secondPhase s deadline t).verdict =
    (climb s.tolerance t.firstArtificial (deadline .second) s.maxPivots 0 false t).verdict :=
  rfl

/-- A run comes to its second phase when it needs no first one, or when that drives the artificial
variables to zero. -/
def Reaches (s : Settings K) (deadline : Deadline) (p : DenseProgram K) : Prop :=
  (Tableau.ofProgram p).numArtificial = 0 ∨
    (ascent s deadline p).ending = .optimal ∧
      (ascent s deadline p).tableau.artificialsVanish s.tolerance = true

/-- The tableau that the second phase starts from. -/
def ready (s : Settings K) (deadline : Deadline) (p : DenseProgram K) : Tableau K :=
  if (Tableau.ofProgram p).numArtificial = 0 then Tableau.ofProgram p
  else (handOver s (Tableau.ofProgram p).objective (ascent s deadline p).tableau).1

/-- The second phase of a run that comes to it. -/
def summit (s : Settings K) (deadline : Deadline) (p : DenseProgram K) : Climb K :=
  climb s.tolerance (ready s deadline p).firstArtificial (deadline .second) s.maxPivots 0 false
    (ready s deadline p)

theorem verdict_of_reaches (h : Reaches s deadline p) :
    (run s deadline p).verdict = (summit s deadline p).verdict := by
  rw [summit, ← verdict_secondPhase]
  rw [run_eq]
  unfold ready
  by_cases h0 : (Tableau.ofProgram p).numArtificial = 0
  · rw [if_pos h0, if_pos h0]
  · rw [if_neg h0, if_neg h0]
    obtain ⟨hending, hvanish⟩ := h.resolve_left h0
    unfold ascent at hending hvanish ⊢
    simp only [hending, hvanish, if_true]

/-- What a run that ends in its first phase says. -/
theorem verdict_of_not_reaches (h : ¬Reaches s deadline p) :
    (run s deadline p).verdict = match (ascent s deadline p).ending with
      | .optimal => .infeasible
      | .unbounded => .infeasible
      | .timeLimit => .timeLimit none
      | .pivotLimit => .pivotLimit := by
  rw [Reaches, not_or] at h
  obtain ⟨h0, hfirst⟩ := h
  unfold ascent at hfirst ⊢
  rw [run_eq, if_neg h0]
  cases hending : (firstPhase s deadline (Tableau.ofProgram p)).ending with
  | optimal =>
    have hvanish : ¬(firstPhase s deadline (Tableau.ofProgram p)).tableau.artificialsVanish
        s.tolerance = true := fun hv => hfirst ⟨hending, hv⟩
    simp only [hending, hvanish]
    rfl
  | unbounded => simp only [hending]
  | timeLimit => simp only [hending]
  | pivotLimit => simp only [hending]

/-- A point comes from the second phase. -/
theorem reaches_of_point? {point : List K} (h : (run s deadline p).verdict.point? = some point) :
    Reaches s deadline p ∧ point = (summit s deadline p).tableau.point := by
  by_cases hreach : Reaches s deadline p
  · rw [verdict_of_reaches hreach, Climb.verdict] at h
    cases hending : (summit s deadline p).ending <;> simp_all [Verdict.point?]
  · rw [verdict_of_not_reaches hreach] at h
    cases hending : (ascent s deadline p).ending <;> simp_all [Verdict.point?]

/-- A run that finds an optimal point has found it in its second phase. -/
theorem summit_of_status_eq_optimal (h : (run s deadline p).verdict.status = .optimal) :
    Reaches s deadline p ∧ (summit s deadline p).ending = .optimal ∧
      (run s deadline p).verdict.point? = some (summit s deadline p).tableau.point := by
  by_cases hreach : Reaches s deadline p
  · rw [verdict_of_reaches hreach, Climb.verdict] at h ⊢
    cases hending : (summit s deadline p).ending <;> simp_all [Verdict.status, Verdict.point?]
  · rw [verdict_of_not_reaches hreach] at h
    cases hending : (ascent s deadline p).ending <;> simp_all [Verdict.status]

theorem summit_of_status_eq_unbounded (h : (run s deadline p).verdict.status = .unbounded) :
    Reaches s deadline p ∧ (summit s deadline p).ending = .unbounded := by
  by_cases hreach : Reaches s deadline p
  · rw [verdict_of_reaches hreach, Climb.verdict] at h
    cases hending : (summit s deadline p).ending <;> simp_all [Verdict.status]
  · rw [verdict_of_not_reaches hreach] at h
    cases hending : (ascent s deadline p).ending <;> simp_all [Verdict.status]

/-- A run that finds no feasible point has ended in its first phase, unbounded or with artificial
variables that do not vanish. -/
theorem ascent_of_status_eq_infeasible (h : (run s deadline p).verdict.status = .infeasible) :
    (ascent s deadline p).ending = .unbounded ∨
      (ascent s deadline p).ending = .optimal ∧
        ¬(ascent s deadline p).tableau.artificialsVanish s.tolerance = true := by
  by_cases hreach : Reaches s deadline p
  · rw [verdict_of_reaches hreach, Climb.verdict] at h
    cases hending : (summit s deadline p).ending <;> simp_all [Verdict.status]
  · rw [verdict_of_not_reaches hreach] at h
    cases hending : (ascent s deadline p).ending with
    | unbounded => exact .inl rfl
    | optimal => exact .inr ⟨rfl, fun hv => hreach (.inr ⟨hending, hv⟩)⟩
    | timeLimit => simp [hending, Verdict.status] at h
    | pivotLimit => simp [hending, Verdict.status] at h

end Run

/-! ## Answers -/

section Answer

variable [Scalar K] {s : Settings K} {clock : Clock K} {m : Model K} {limits : Limits K}

theorem status_toSolution (v : Verdict K) : (v.toSolution s m).status = v.status := by
  cases v with
  | timeLimit incumbent? => cases incumbent? <;> rfl
  | _ => rfl

theorem toSolution_of_point? {v : Verdict K} {point : List K} (h : v.point? = some point) :
    v.toSolution s m = .atPoint m v.status point := by
  cases v with
  | optimal x => rw [← Option.some.inj h]; rfl
  | timeLimit incumbent? => rw [show incumbent? = some point from h]; rfl
  | _ => exact absurd h (by simp [Verdict.point?])

/-- An answer with an objective value has a verdict that comes with a point. -/
theorem point?_of_objective? {v : Verdict K} (h : (v.toSolution s m).objective?.isSome = true) :
    ∃ point, v.point? = some point := by
  cases v with
  | optimal point => exact ⟨point, rfl⟩
  | timeLimit incumbent? =>
    cases incumbent? with
    | some point => exact ⟨point, rfl⟩
    | none => exact absurd h Bool.false_ne_true
  | _ => exact absurd h Bool.false_ne_true

/-- The status of an answer is that of the verdict of its run. -/
theorem status_solve :
    (solve s clock m limits).status = (run s (deadline clock limits) m.dense).verdict.status :=
  status_toSolution _

end Answer

end LinearProgram.Simplex
