import Mathlib
import LinearProgram.Proofs.Engine.Course
import LinearProgram.Proofs.Engine.SolutionFile
import LinearProgram.Proofs.Simplex.Course
import LinearProgram.Proofs.Simplex.Watched
import LinearProgram.Proofs.Solution.Point

/-!
# What every solution keeps to

A solution lists everything or nothing, and its status says which: values for all variables, and what the
model's expressions make of these values, or no number at all. Only an error has a message. Every way of making
a solution keeps to that, and so does every solver (`solvers_keep`).
-/

namespace LinearProgram

variable {K : Type}

namespace Solution

variable [Scalar K]

/-- The value that is listed for a variable; zero for an identifier without a value. -/
def listed (s : Solution K) (id : String) : K :=
  (s.value? id).getD 0

/-- Every variable has a value, and the constraints and the objective have the values that come of these. -/
structure Populated (s : Solution K) (m : Model K) : Prop where
  values : s.values.map Entry.id = m.vars.map Variable.id
  activities : s.activities = m.constraints.map fun c => ⟨c.id, c.expression.evaluate s.listed⟩
  objective : s.objective? = some (m.objective.expression.evaluate s.listed)

omit [Scalar K] in
/-- No number is listed. -/
structure Blank (s : Solution K) : Prop where
  objective : s.objective? = none
  values : s.values = []
  activities : s.activities = []

/-- What is listed under a status. -/
def Shaped (s : Solution K) (m : Model K) : Status → Prop
  | .optimal => s.Populated m
  | .timeLimitReached => s.Populated m ∨ s.Blank
  | .infeasible | .unbounded | .error => s.Blank

/-- The solution lists what its status says, and has a message when that is an error and only then. -/
structure Keeps (s : Solution K) (m : Model K) : Prop where
  shaped : s.Shaped m s.status
  message : s.message?.isSome = true ↔ s.status = .error

/-- The ways in which a solution to a model is made, with the point that it is made from. -/
inductive Made (m : Model K) : Option (List K) → Solution K → Prop
  | optimal (point : List K) : Made m (some point) (.optimal m point)
  | timeLimitReached (incumbent? : Option (List K)) : Made m incumbent? (.timeLimitReached m incumbent?)
  | infeasible : Made m none .infeasible
  | unbounded : Made m none .unbounded
  | error (message : String) : Made m none (.error message)

/-! ## Ways of making a solution -/

section Point

variable {m : Model K} (hm : m.WellFormed)
include hm

theorem evaluate_listed_atPoint {e : LinearExpr K} (he : e.Over (m.vars.map Variable.id)) (status : Status)
    (point : List K) : e.evaluate (atPoint m status point).listed = e.evaluate (m.valueAt point) := by
  refine LinearExpr.evaluate_congr fun name hname => ?_
  obtain ⟨v, hv, rfl⟩ := List.mem_map.mp (he.declared name hname)
  rw [listed, value?_atPoint hm hv, Option.getD_some]

theorem populated_atPoint (status : Status) (point : List K) : (atPoint m status point).Populated m where
  values := by simp [atPoint, Function.comp_def]
  activities := List.map_congr_left fun c hc => by
    rw [evaluate_listed_atPoint hm (hm.constraints c hc).1]
  objective := by
    rw [evaluate_listed_atPoint hm hm.objective]
    rfl

theorem keeps_optimal (point : List K) : (optimal m point).Keeps m :=
  ⟨populated_atPoint hm .optimal point, by simp [optimal, atPoint]⟩

end Point

variable {m : Model K}

omit [Scalar K] in
theorem blank_bare (status : Status) : (bare status : Solution K).Blank :=
  ⟨rfl, rfl, rfl⟩

theorem keeps_timeLimitReached (hm : m.WellFormed) (incumbent? : Option (List K)) :
    (timeLimitReached m incumbent?).Keeps m := by
  cases incumbent? with
  | some point => exact ⟨.inl (populated_atPoint hm _ point), by simp [timeLimitReached, atPoint]⟩
  | none => exact ⟨.inr (blank_bare _), by simp [timeLimitReached, bare]⟩

theorem keeps_infeasible : (infeasible : Solution K).Keeps m :=
  ⟨blank_bare _, by simp [infeasible, bare]⟩

theorem keeps_unbounded : (unbounded : Solution K).Keeps m :=
  ⟨blank_bare _, by simp [unbounded, bare]⟩

theorem keeps_error (message : String) : (error message : Solution K).Keeps m :=
  ⟨⟨rfl, rfl, rfl⟩, by simp [error, bare]⟩

theorem Made.keeps (hm : m.WellFormed) {point? : Option (List K)} {s : Solution K} (h : Made m point? s) :
    s.Keeps m := by
  cases h with
  | optimal point => exact keeps_optimal hm point
  | timeLimitReached incumbent? => exact keeps_timeLimitReached hm point?
  | infeasible => exact keeps_infeasible
  | unbounded => exact keeps_unbounded
  | error message => exact keeps_error message

/-- A solution is the one at its point, or no number is listed. -/
theorem Made.atPoint_or_blank {point? : Option (List K)} {s : Solution K} (h : Made m point? s) :
    (∃ point status, point? = some point ∧ s = .atPoint m status point) ∨ point? = none ∧ s.Blank := by
  cases h with
  | optimal point => exact .inl ⟨point, .optimal, rfl, rfl⟩
  | timeLimitReached incumbent? =>
    cases point? with
    | some point => exact .inl ⟨point, .timeLimitReached, rfl, rfl⟩
    | none => exact .inr ⟨rfl, blank_bare _⟩
  | infeasible => exact .inr ⟨rfl, blank_bare _⟩
  | unbounded => exact .inr ⟨rfl, blank_bare _⟩
  | error message => exact .inr ⟨rfl, rfl, rfl, rfl⟩

end Solution

/-! ## Solvers -/

/-- An answer of the simplex method is made from the point of its verdict. -/
theorem Simplex.made_toSolution [Scalar K] (m : Model K) (settings : Settings K) (verdict : Verdict K) :
    Solution.Made m verdict.point? (verdict.toSolution settings m) := by
  cases verdict with
  | optimal point => exact .optimal point
  | infeasible => exact .infeasible
  | unbounded => exact .unbounded
  | timeLimit incumbent? => exact .timeLimitReached incumbent?
  | pivotLimit => exact .error _

theorem Simplex.keeps_toSolution [Scalar K] {m : Model K} (hm : m.WellFormed) (settings : Settings K)
    (verdict : Verdict K) : (verdict.toSolution settings m).Keeps m :=
  (made_toSolution m settings verdict).keeps hm

section Engine

variable {m : Model Float}

theorem SolutionFile.exists_made_toSolution (file : SolutionFile) :
    ∃ point?, Solution.Made m point? (file.toSolution m) := by
  unfold toSolution
  split
  · exact ⟨_, .optimal _⟩
  · exact ⟨_, .timeLimitReached _⟩
  · exact ⟨_, .infeasible⟩
  · exact ⟨_, .unbounded⟩
  · exact ⟨_, .error _⟩

theorem SolutionFile.exists_made_solutionIn (answer : Except FileError ByteArray) :
    ∃ point?, Solution.Made m point? (solutionIn m answer) := by
  unfold solutionIn
  split
  · unfold solutionOf
    split
    · exact exists_made_toSolution _
    · exact ⟨_, .error _⟩
  · exact ⟨_, .error _⟩

/-- The engine answers with nothing else than a solution that is made in one of the ways. -/
theorem Engine.Course.exists_made {path? : Option String} {limits : Limits Float} {ts : List Transaction}
    {s : Solution Float} (h : Course path? m limits ts (.ok s)) : ∃ point?, Solution.Made m point? s := by
  cases h with
  | failed => exact ⟨_, .error _⟩
  | ended ht directory hexit answer => exact SolutionFile.exists_made_solutionIn answer

theorem Engine.Course.keeps (hm : m.WellFormed) {path? : Option String} {limits : Limits Float}
    {ts : List Transaction} {s : Solution Float} (h : Course path? m limits ts (.ok s)) : s.Keeps m := by
  obtain ⟨point?, hmade⟩ := h.exists_made
  exact hmade.keeps hm

end Engine

/-- **Every solver keeps to it.** The simplex method answers every accepted model, whatever its limits, its
settings and the clock, with a solution that lists what its status says: on every clock that is known
beforehand and on every machine. So does the engine when it answers, whatever the machine and the engine on it
do. -/
theorem solvers_keep {m : Model Float} (h : m.Accepted) (limits : Limits Float) {σ : Type} (w : σ) :
    (∀ (settings : Simplex.Settings Float) (clock : Simplex.Clock Float),
      (Simplex.solve settings clock m limits).Keeps m) ∧
    (∀ (host : Host (StateM σ)) (settings : Simplex.Settings Float), ∃ s w',
      ((Simplex.solver host settings).solve m limits).run w = (.ok s, w') ∧ s.Keeps m) ∧
    (∀ (host : Host (StateM σ)) (path? : Option String) s w',
      ((Engine.solver host path?).solve m limits).run w = (.ok s, w') → s.Keeps m) := by
  have hclock (settings : Simplex.Settings Float) (clock : Simplex.Clock Float) :
      (Simplex.solve settings clock m limits).Keeps m :=
    Simplex.keeps_toSolution h.wellFormed settings _
  refine ⟨hclock, fun host settings => ?_, fun host path? s w' hrun => ?_⟩
  · obtain ⟨_, _, w', -, hsolve, r, -, rfl⟩ := Simplex.recorded_solver host settings m limits [] w
    exact ⟨_, w', hsolve, hclock settings r.clock⟩
  · obtain ⟨result, ts, w'', -, hsolve, hcourse⟩ := Engine.recorded_solve host path? m limits [] w
    obtain ⟨rfl, -⟩ := Prod.mk.inj (hsolve.symm.trans hrun)
    exact hcourse.keeps h.wellFormed

/-- A machine on which everything succeeds, with an engine that answers `ModelFile.wares`. -/
def prepared : Host (StateM Unit) where
  contents _ := pure (.ok SolutionFile.waresAnswer.toUTF8)
  isFile _ := pure true
  findProgram _ := pure (some "/usr/bin/scip")
  makeScratch := pure (.ok "/tmp/solve")
  store _ _ := pure (.ok ())
  start _ _ := pure (.ok ⟨.code 0, .empty, .empty⟩)
  log _ := pure ()

theorem solvers_keep_prepared :
    ModelFile.wares.Accepted ∧
      (Simplex.solve .shipped .instant ModelFile.wares .unset).Keeps ModelFile.wares ∧
      (∃ s w', ((Simplex.solver prepared .shipped).solve ModelFile.wares .unset).run () = (.ok s, w') ∧
        s.Keeps ModelFile.wares) ∧
      ∃ s w', ((Engine.solver prepared none).solve ModelFile.wares .unset).run () = (.ok s, w') ∧
        s.status = .optimal ∧ s.Keeps ModelFile.wares :=
  have hrun : ((Engine.solver prepared none).solve ModelFile.wares .unset).run () =
      (.ok (SolutionFile.solutionIn ModelFile.wares (.ok SolutionFile.waresAnswer.toUTF8)), ()) := rfl
  have hkeep := solvers_keep ModelFile.accepted_wares .unset ()
  ⟨ModelFile.accepted_wares, hkeep.1 .shipped .instant, hkeep.2.1 prepared .shipped, _, _, hrun,
    by decide +kernel, hkeep.2.2 prepared none _ _ hrun⟩

end LinearProgram
