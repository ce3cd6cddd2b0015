import Mathlib
import LinearProgram.Proofs.Report.Rows
import LinearProgram.Proofs.Solution.Contract

/-!
# What is shown of a point

A solution is made from a point or without one, and a report shows the one it is made from. Whether there is
one is read off the values of variables, so that it is lost on the way where the model has no variables, and a
search that was stopped with a point in hand is then reported as one that found nothing. With a variable to
list this cannot happen, whichever solver answers (`point_shown_iff`).
-/

namespace LinearProgram.Report

/-- The line that says that nothing was found. -/
def nothingFound : String :=
  "No feasible solution was found within the time limit."

/-- The report on a search that was stopped with a point in hand. -/
def incumbentLines (m : Model Float) (point : List Float) : List String :=
  ["Status: TIME LIMIT REACHED", "Best solution found so far (not proven optimal)."] ++
    [objectiveRow m (m.objective.expression.evaluate (m.valueAt point))] ++
    ["", "Decision variables:"] ++ m.vars.map (fun v => variableRow v (m.valueAt point v.id)) ++
    ["", "Constraints:"] ++ m.constraints.map
      (fun c => constraintRow c (c.expression.evaluate (m.valueAt point)))

/-- There are values and an objective value exactly where there is a point, and a search that was stopped is
reported with its point, or as one that found nothing where it has none. -/
structure Shows (m : Model Float) (point? : Option (List Float)) (s : Solution Float) : Prop where
  values : s.hasValues = true ↔ point?.isSome = true
  objective : s.objective?.isSome = true ↔ point?.isSome = true
  nothing : s.status = .timeLimitReached → (nothingFound ∈ lines m s ↔ point? = none)
  incumbent : s.status = .timeLimitReached → ∀ point, point? = some point →
    lines m s = incumbentLines m point

variable {m : Model Float} {s : Solution Float}

/-- No line of a point says that nothing was found: its lines begin with another letter. -/
theorem nothingFound_not_mem_incumbentLines (point : List Float) :
    nothingFound ∉ incumbentLines m point := by
  have hfirst : ∀ l ∈ incumbentLines m point, l.toList.head? ≠ some 'N' := by
    simp [incumbentLines, objectiveRow, variableRow, constraintRow, or_imp, forall_and]
  exact fun hmem => hfirst _ hmem rfl

theorem hasValues_atPoint (status : Status) (point : List Float) :
    (Solution.atPoint m status point).hasValues = true ↔ m.vars ≠ [] := by
  simp [Solution.hasValues, Solution.atPoint]

theorem shows_of_blank (h : s.Blank) : Shows m none s where
  values := by simp [Solution.hasValues, h.values]
  objective := by simp [h.objective]
  nothing hstatus := by
    have hexplained : Explained s nothingFound := .late hstatus (by simp [Solution.hasValues, h.values])
    simp [lines_of_explained hexplained]
  incumbent _ _ hpoint := nomatch hpoint

theorem shows_atPoint (hm : m.WellFormed) (hvars : m.vars ≠ []) (status : Status) (point : List Float) :
    Shows m (some point) (.atPoint m status point) := by
  have hvalues := (hasValues_atPoint status point).mpr hvars
  have hlines (hstatus : status = .timeLimitReached) :
      lines m (.atPoint m status point) = incumbentLines m point := by
    subst hstatus
    exact lines_atPoint hm (.incumbent rfl hvalues)
  refine ⟨iff_of_true hvalues rfl, iff_of_true rfl rfl, fun hstatus => ?_, ?_⟩
  · rw [hlines hstatus]
    exact iff_of_false (nothingFound_not_mem_incumbentLines point) (Option.some_ne_none point)
  · rintro hstatus _ ⟨⟩
    exact hlines hstatus

/-- **A point is shown where there is a variable.** Every solution to an accepted model has an objective value
exactly where it is made from a point. That it is shown in all other ways, too, needs a variable: with one it
always is, and without one only a solution that is made without a point is reported as it should be. What the
solvers answer is made in one of these ways, on every clock and on every machine. -/
theorem point_shown_iff (h : m.Accepted) :
    (∀ point? s, Solution.Made m point? s → (s.objective?.isSome = true ↔ point?.isSome = true) ∧
      (Shows m point? s ↔ (m.vars = [] → point? = none))) ∧
    ∀ (limits : Limits Float) {σ : Type} (w : σ),
      (∀ (settings : Simplex.Settings Float) (clock : Simplex.Clock Float),
        Solution.Made m (Simplex.runOn settings clock m limits).verdict.point?
          (Simplex.solve settings clock m limits)) ∧
      (∀ (host : Host (StateM σ)) (settings : Simplex.Settings Float), ∃ clock s w',
        ((Simplex.solver host settings).solve m limits).run w = (.ok s, w') ∧
          Solution.Made m (Simplex.runOn settings clock m limits).verdict.point? s) ∧
      ∀ (host : Host (StateM σ)) (path? : Option String) s w',
        ((Engine.solver host path?).solve m limits).run w = (.ok s, w') →
          ∃ point?, Solution.Made m point? s := by
  have hclock (limits : Limits Float) (settings : Simplex.Settings Float) (clock : Simplex.Clock Float) :
      Solution.Made m (Simplex.runOn settings clock m limits).verdict.point?
        (Simplex.solve settings clock m limits) := Simplex.made_toSolution m settings _
  refine ⟨fun point? s hmade => ?_, fun limits σ w => ⟨hclock limits, fun host settings => ?_, ?_⟩⟩
  · rcases hmade.atPoint_or_blank with ⟨point, status, rfl, rfl⟩ | ⟨rfl, hblank⟩
    · refine ⟨iff_of_true rfl rfl, fun hshows hvars => ?_, fun hvars => ?_⟩
      · exact absurd hvars ((hasValues_atPoint status point).mp (hshows.values.mpr rfl))
      · exact shows_atPoint h.wellFormed (fun hnil => nomatch hvars hnil) status point
    · have hshows : Shows m none s := shows_of_blank hblank
      exact ⟨hshows.objective, iff_of_true hshows fun _ => rfl⟩
  · obtain ⟨_, _, w', -, hsolve, r, -, rfl⟩ := Simplex.recorded_solver host settings m limits [] w
    exact ⟨r.clock, _, w', hsolve, hclock limits settings r.clock⟩
  · intro host path? s w' hrun
    obtain ⟨result, ts, w'', -, hsolve, hcourse⟩ := Engine.recorded_solve host path? m limits [] w
    obtain ⟨rfl, -⟩ := Prod.mk.inj (hsolve.symm.trans hrun)
    exact hcourse.exists_made

theorem point_shown_iff_capped :
    capped.Accepted ∧ Solution.Made capped (some [3]) (.timeLimitReached capped (some [3])) ∧
      Shows capped (some [3]) (.timeLimitReached capped (some [3])) :=
  have hmade : Solution.Made capped (some [3]) (.timeLimitReached capped (some [3])) := .timeLimitReached _
  ⟨accepted_capped, hmade, ((point_shown_iff accepted_capped).1 _ _ hmade).2.mpr nofun⟩

/-- A model without variables, with a constraint that holds. -/
def idle : Model Float where
  vars := []
  constraints := [⟨"idle", ⟨[]⟩, .le, 1⟩]
  objective := ⟨⟨[]⟩, .maximize⟩

/-- The engine was stopped with the only point in hand. The solution has the objective value and the left-hand
side of the constraint, and is reported as if nothing had been found. -/
theorem not_shows_idle :
    idle.Accepted ∧
      SolutionFile.solutionIn idle (.ok "solution status: time limit reached\nobjective value: 0\n".toUTF8) =
        .timeLimitReached idle (some []) ∧
      Solution.timeLimitReached idle (some []) =
        ⟨.timeLimitReached, some (-0.0), [], [⟨"idle", -0.0⟩], none⟩ ∧
      lines idle (.timeLimitReached idle (some [])) = ["Status: TIME LIMIT REACHED", nothingFound] ∧
      ¬Shows idle (some []) (.timeLimitReached idle (some [])) := by
  refine ⟨⟨[.constrain "idle" [] .le 1, .pursue [] .maximize], rfl⟩, by decide +kernel, by decide +kernel,
    by decide +kernel, fun hshows => ?_⟩
  exact absurd (hshows.values.mpr rfl) (by decide +kernel)

end LinearProgram.Report
