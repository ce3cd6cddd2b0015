import Mathlib
import LinearProgram.Job
import LinearProgram.Proofs.Engine.Course
import LinearProgram.Proofs.Limits.Acceptance
import LinearProgram.Proofs.Simplex.Watched

/-!
# What a job asks of the machine

A job asks the machine for the file of limits, if one is named, and then its solver asks: the simplex method
for the time, the external engine for all that a solve with it needs. The requests with their answers say what
the job comes to (`recorded_run`).
-/

namespace LinearProgram

/-- A solver that has a model to solve: what it asks of the machine, and what it finds. The simplex method finds
what the run finds on the clock that it has read. -/
inductive Backend.Solves (model : Model Float) (limits : Limits Float) :
    Backend → List Transaction → Except SolverError (Solution Float) → Prop
  | simplex (r : Simplex.Readings) : Solves model limits .simplex r.transactions
      (.ok (Simplex.solve .shipped r.clock model limits))
  | scip {ts : List Transaction} {found : Except SolverError (Solution Float)}
      (h : Engine.Contained none model limits ts found) : Solves model limits .scip ts found

namespace Job

/-- What is asked for the limits: nothing where no file is named, and then none are set; else the file. -/
inductive Obtains : Option String → List Transaction → Except LimitsError (Limits Float) → Prop
  | unnamed : Obtains none [] (.ok ⟨none, none⟩)
  | file {path : String} {contents : Except FileError ByteArray} {source : Except LimitsError (Limits Float)}
      (h : Limits.Holds path contents source) : Obtains (some path) [.contents path contents] source

/-- A job that has its model: what it asks of the machine, and what it comes to. -/
inductive Asks (request : Request) (model : Model Float) :
    List Transaction → Except Failure (Outcome Float) → Prop
  | misread {ts : List Transaction} {e : LimitsError} (h : Obtains request.limitsFile? ts (.error e)) :
      Asks request model ts (.error (.limits e))
  | solved {ts later : List Transaction} {limits : Limits Float}
      {found : Except SolverError (Solution Float)} (h : Obtains request.limitsFile? ts (.ok limits))
      (hfound : request.backend.Solves model limits later found) :
      Asks request model (ts ++ later) (conclude request.backend.name model found)

variable {σ : Type} (host : Host (StateM σ))

theorem recorded_readLimits (limitsFile? : Option String) :
    Recorded (readLimits host.recorded limitsFile?) (readLimits host limitsFile?) (Obtains limitsFile?) := by
  cases limitsFile? with
  | none => exact .pure .unnamed
  | some path =>
    refine (Recorded.noting (.contents path) _).bind fun new contents hnew => ?_
    subst hnew
    exact .pure (.file (Limits.holds_ofFile path contents))

theorem recorded_solver (backend : Backend) (model : Model Float) (limits : Limits Float) :
    Recorded ((backend.solver host.recorded).solve model limits) ((backend.solver host).solve model limits)
      (backend.Solves model limits) := by
  cases backend with
  | simplex =>
    refine (Simplex.recorded_solver host .shipped model limits).mono ?_
    rintro new found ⟨r, rfl, rfl⟩
    exact .simplex r
  | scip => exact (Engine.recorded_solve host none model limits).mono fun _ _ h => .scip h.contained

theorem recorded_solve (backend : Backend) (limits : Limits Float) (model : Model Float) :
    Recorded (solve host.recorded.log (backend.solver host.recorded) limits model)
      (solve host.log (backend.solver host) limits model) fun new answer =>
        ∃ found, backend.Solves model limits new found ∧ answer = conclude backend.name model found := by
  have hname {m : Type → Type} [Monad m] (host : Host m) : (backend.solver host).name = backend.name := by
    cases backend <;> rfl
  simp only [solve, hname]
  refine (Recorded.unnoted (host.log _)).bind fun new _ hnew => ?_
  subst hnew
  refine (Recorded.forM model.constraints fun c => host.log (.constraint c)).bind fun new _ hnew => ?_
  subst hnew
  refine (recorded_solver host backend model limits).bind fun new found hfound => ?_
  exact .pure ⟨found, by simpa using hfound, rfl⟩

theorem recorded_run (request : Request) (model : Model Float) :
    Recorded (run host.recorded request (pure (.ok model))) (run host request (pure (.ok model)))
      (Asks request model) := by
  refine (recorded_readLimits host request.limitsFile?).bind fun asked source hasked => ?_
  cases source with
  | error e => exact .pure (by rw [List.append_nil]; exact .misread hasked)
  | ok limits =>
    simp only [buildAndSolve, pure_bind]
    refine (recorded_solve host request.backend limits model).mono ?_
    rintro new answer ⟨found, hfound, rfl⟩
    exact .solved hasked hfound

end Job

end LinearProgram
