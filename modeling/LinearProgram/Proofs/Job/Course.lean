import Mathlib
import LinearProgram.Job
import LinearProgram.Proofs.Limits.Acceptance

/-!
# The course of a job

A job asks for its limits, for its model and for a solution, each at most once and in this order, and there are
five ways in which it can go (`Course`). Whatever the limits, the model and the solver are made of, it goes in
one of them (`course_arrange`), which says what its result is (`jobs_orderly`). The calls are written down by
whoever is called, in front of its effects on the machine, which are those of a job without such a record.
-/

namespace LinearProgram

variable {K σ α : Type}

namespace Job

/-! ## What is written down -/

/-- A call that a job makes, with the answer to it. -/
inductive Call (K : Type) where
  | read (answer : Except LimitsError (Limits K))
  | build (answer : Except ModelError (Model K))
  | solve (model : Model K) (limits : Limits K) (answer : Except SolverError (Solution K))

/-- What runs on a machine in a state of type `σ` where calls are written down. -/
abbrev Watching (K σ : Type) : Type → Type :=
  StateM (List (Call K) × σ)

/-- Writes down a call after the earlier ones. -/
def watched (note : α → Call K) (action : StateM σ α) : Watching K σ α :=
  fun (calls, w) =>
    let (a, w') := action.run w
    (a, calls ++ [note a], w')

/-- Runs what is no call. -/
def unwatched (action : StateM σ α) : Watching K σ α :=
  fun (calls, w) =>
    let (a, w') := action.run w
    (a, calls, w')

end Job

/-- The solver that writes down what it is asked to solve, under which limits, and its answer. -/
def Solver.watched (solver : Solver (StateM σ) K) : Solver (Job.Watching K σ) K where
  name := solver.name
  honours := solver.honours
  solve model limits := Job.watched (.solve model limits) (solver.solve model limits)

namespace Job

/-! ## Jobs in general -/

/-- A job with any solver and any source of limits. -/
def arrange {m : Type → Type} [Monad m] (log : Event K → m Unit) (solver : Solver m K)
    (source : m (Except LimitsError (Limits K))) (build : m (Except ModelError (Model K))) :
    m (Except Failure (Outcome K)) := do
  match ← source with
  | .error e => return .error (.limits e)
  | .ok limits => buildAndSolve log solver limits build

/-- How a job can go once it has asked for its limits: its calls, in order, and its result. -/
inductive Course (solver : String) :
    Except LimitsError (Limits K) → List (Call K) → Except Failure (Outcome K) → Prop
  | misread (e : LimitsError) : Course solver (.error e) [] (.error (.limits e))
  | unbuilt (limits : Limits K) (e : ModelError) :
      Course solver (.ok limits) [.build (.error e)] (.error (.model e))
  | unsolved (limits : Limits K) (model : Model K) (e : SolverError) :
      Course solver (.ok limits) [.build (.ok model), .solve model limits (.error e)] (.error (.solver e))
  | failed (limits : Limits K) (model : Model K) {solution : Solution K} (h : solution.status = .error) :
      Course solver (.ok limits) [.build (.ok model), .solve model limits (.ok solution)]
        (.error (.solve solver (solution.message?.getD "unknown error")))
  | solved (limits : Limits K) (model : Model K) {solution : Solution K} (h : solution.status ≠ .error) :
      Course solver (.ok limits) [.build (.ok model), .solve model limits (.ok solution)]
        (.ok ⟨model, solution⟩)

/-! ## Every job takes one of the courses -/

section Run

variable (log : Event K → StateM σ Unit) (solver : Solver (StateM σ) K) (limits : Limits K)

/-- The solver's answer decides which course a job with a model takes. -/
theorem course_conclude (model : Model K) (answer : Except SolverError (Solution K)) :
    Course solver.name (.ok limits) [.build (.ok model), .solve model limits answer]
      (conclude solver.name model answer) := by
  cases answer with
  | error e => exact .unsolved limits model e
  | ok solution =>
    simp only [conclude]
    by_cases h : solution.status = .error
    · rw [if_pos h]
      exact .failed limits model h
    · rw [if_neg h]
      exact .solved limits model h

theorem run_watched_bind {β : Type} (note : α → Call K) (action : StateM σ α) (f : α → Watching K σ β)
    (calls : List (Call K)) (w : σ) : (watched note action >>= f).run (calls, w) =
      (f (action.run w).1).run (calls ++ [note (action.run w).1], (action.run w).2) :=
  rfl

theorem run_forM_unwatched (as : List α) (action : α → StateM σ PUnit) (calls : List (Call K)) (w : σ) :
    (as.forM fun a => (unwatched (action a) : Watching K σ PUnit)).run (calls, w) =
      (⟨⟩, calls, ((as.forM action).run w).2) := by
  induction as generalizing w with
  | nil => rfl
  | cons a as ih => exact ih ((action a).run w).2

theorem watched_solve (model : Model K) (calls : List (Call K)) (w : σ) : ∃ answer w',
    (solve (fun event => unwatched (log event)) solver.watched limits model).run (calls, w) =
        (conclude solver.name model answer, calls ++ [.solve model limits answer], w') ∧
      (solve log solver limits model).run w = (conclude solver.name model answer, w') := by
  -- Before the solver is asked, events are reported, which leave the list of calls as it is.
  let w₁ := ((log (.solving solver.name model.numVariables model.numConstraints)).run w).2
  let w₂ := ((model.constraints.forM fun c => log (.constraint c)).run w₁).2
  have hevents := run_forM_unwatched model.constraints (fun c => log (.constraint c)) calls w₁
  refine ⟨((solver.solve model limits).run w₂).1, ((solver.solve model limits).run w₂).2, ?_, rfl⟩
  exact congrArg (fun x => (watched (.solve model limits) (solver.solve model limits) >>= fun answer =>
    pure (conclude solver.name model answer)).run x.2) hevents

variable (build : StateM σ (Except ModelError (Model K)))

theorem course_buildAndSolve (calls : List (Call K)) (w : σ) : ∃ new result w',
    (buildAndSolve (fun event => unwatched (log event)) solver.watched limits
          (watched .build build)).run (calls, w) = (result, calls ++ new, w') ∧
      (buildAndSolve log solver limits build).run w = (result, w') ∧
      Course solver.name (.ok limits) new result := by
  cases hbuild : build.run w with
  | mk model? w₁ =>
  cases model? with
  | error e =>
    refine ⟨[.build (.error e)], .error (.model e), w₁, ?_, ?_, .unbuilt limits e⟩
    · rw [buildAndSolve, run_watched_bind, hbuild]
      rfl
    · rw [buildAndSolve, StateT.run_bind, hbuild]
      rfl
  | ok model =>
    obtain ⟨answer, w', hwatched, hplain⟩ :=
      watched_solve log solver limits model (calls ++ [.build (.ok model)]) w₁
    refine ⟨_, _, w', ?_, ?_, course_conclude solver limits model answer⟩
    · rw [buildAndSolve, run_watched_bind, hbuild]
      exact hwatched.trans (by rw [List.append_assoc]; rfl)
    · rw [buildAndSolve, StateT.run_bind, hbuild]
      exact hplain

variable (source : StateM σ (Except LimitsError (Limits K)))

theorem course_arrange (calls : List (Call K)) (w : σ) : ∃ new result w',
    (arrange (fun event => unwatched (log event)) solver.watched (watched .read source)
          (watched .build build)).run (calls, w) =
        (result, calls ++ .read (source.run w).1 :: new, w') ∧
      (arrange log solver source build).run w = (result, w') ∧
      Course solver.name (source.run w).1 new result := by
  cases hsource : source.run w with
  | mk limits? w₁ =>
  cases limits? with
  | error e =>
    refine ⟨[], .error (.limits e), w₁, ?_, ?_, .misread e⟩
    · rw [arrange, run_watched_bind, hsource]
      rfl
    · rw [arrange, StateT.run_bind, hsource]
      rfl
  | ok limits =>
    obtain ⟨new, result, w', hwatched, hplain, hcourse⟩ :=
      course_buildAndSolve log solver limits build (calls ++ [.read (.ok limits)]) w₁
    refine ⟨new, result, w', ?_, ?_, hcourse⟩
    · rw [arrange, run_watched_bind, hsource]
      exact hwatched.trans (by rw [List.append_assoc]; rfl)
    · rw [arrange, StateT.run_bind, hsource]
      exact hplain

end Run

/-! ## What holds in every course -/

/-- What is asked for once, what is not asked for, and what the answers make the result. -/
structure Orderly (solver : String) (source : Except LimitsError (Limits K)) (calls : List (Call K))
    (result : Except Failure (Outcome K)) : Prop where
  /-- Without limits nothing is built. -/
  misread : ∀ e, source = .error e → calls = [] ∧ result = .error (.limits e)
  /-- With limits a model is built once, and that model is solved once, under these limits. -/
  built : ∀ limits, source = .ok limits → ∃ model? rest, calls = .build model? :: rest ∧
    (∀ e, model? = .error e → rest = [] ∧ result = .error (.model e)) ∧
      ∀ model, model? = .ok model → ∃ answer, rest = [.solve model limits answer]
  /-- The errors of a solver are passed on. -/
  unsolved : ∀ e, result = .error (.solver e) ↔ ∃ model limits, .solve model limits (.error e) ∈ calls
  /-- An attempt has failed if that is its status. -/
  failed : ∀ name message, result = .error (.solve name message) ↔ name = solver ∧
    ∃ model limits solution, .solve model limits (.ok solution) ∈ calls ∧ solution.status = .error ∧
      message = solution.message?.getD "unknown error"
  /-- Every other status is an outcome, with the model and the solution as they are. -/
  solved : ∀ outcome, result = .ok outcome ↔ outcome.solution.status ≠ .error ∧
    ∃ limits, .solve outcome.model limits (.ok outcome.solution) ∈ calls

namespace Course

variable {solver : String} {source : Except LimitsError (Limits K)} {calls : List (Call K)}
  {result : Except Failure (Outcome K)}

theorem built {limits : Limits K} (h : Course solver (.ok limits) calls result) :
    ∃ model? rest, calls = .build model? :: rest ∧
      (∀ e, model? = .error e → rest = [] ∧ result = .error (.model e)) ∧
        ∀ model, model? = .ok model → ∃ answer, rest = [.solve model limits answer] := by
  cases h with
  | unbuilt e => exact ⟨_, _, rfl, by simp, by simp⟩
  | unsolved model e => exact ⟨_, _, rfl, by simp, by simp⟩
  | failed model hstatus => exact ⟨_, _, rfl, by simp, by simp⟩
  | solved model hstatus => exact ⟨_, _, rfl, by simp, by simp⟩

theorem misread_iff (h : Course solver source calls result) {e : LimitsError} :
    result = .error (.limits e) ↔ source = .error e := by
  cases h with
  | misread e' => simp
  | unbuilt | unsolved | failed | solved => simp

theorem unsolved_iff (h : Course solver source calls result) {e : SolverError} :
    result = .error (.solver e) ↔ ∃ model limits, .solve model limits (.error e) ∈ calls := by
  cases h with
  | unsolved limits model e' => simp [eq_comm]
  | misread | unbuilt | failed | solved => simp

theorem failed_iff (h : Course solver source calls result) {name message : String} :
    result = .error (.solve name message) ↔ name = solver ∧
      ∃ model limits solution, .solve model limits (.ok solution) ∈ calls ∧ solution.status = .error ∧
        message = solution.message?.getD "unknown error" := by
  cases h with
  | failed limits model hstatus => simp [hstatus, eq_comm]
  | solved limits model hstatus => simp [hstatus]
  | misread | unbuilt | unsolved => simp

theorem solved_iff (h : Course solver source calls result) {outcome : Outcome K} :
    result = .ok outcome ↔ outcome.solution.status ≠ .error ∧
      ∃ limits, .solve outcome.model limits (.ok outcome.solution) ∈ calls := by
  obtain ⟨model, solution⟩ := outcome
  cases h with
  | failed limits model' hstatus =>
    suffices solution.status ≠ .error → model = model' → solution ≠ _ by simpa
    rintro hne - rfl
    exact hne hstatus
  | solved limits model' hstatus =>
    constructor
    · rintro ⟨⟩
      exact ⟨hstatus, limits, by simp⟩
    · rintro ⟨-, limits', hmem⟩
      obtain ⟨rfl, -, rfl⟩ : model = model' ∧ limits' = limits ∧ solution = _ := by simpa using hmem
      rfl
  | misread | unbuilt | unsolved => simp

theorem orderly (h : Course solver source calls result) : Orderly solver source calls result where
  misread := by
    rintro e rfl
    cases h
    exact ⟨rfl, rfl⟩
  built := by
    rintro limits rfl
    exact h.built
  unsolved _ := h.unsolved_iff
  failed _ _ := h.failed_iff
  solved _ := h.solved_iff

end Course

/-! ## What a request asks for -/

/-- Reading the limits that a request names: none are set where no file is named, and then the machine is left
alone; else they are what the file holds that the machine is asked for. -/
inductive Reads (host : Host (StateM σ)) : Option String → σ → Except LimitsError (Limits Float) → σ → Prop
  | unnamed (w : σ) : Reads host none w (.ok ⟨none, none⟩) w
  | file {path : String} {w : σ} {source : Except LimitsError (Limits Float)}
      (h : Limits.Holds path ((host.contents path).run w).1 source) :
      Reads host (some path) w source ((host.contents path).run w).2

theorem reads_readLimits (host : Host (StateM σ)) (limitsFile? : Option String) (w : σ) :
    Reads host limitsFile? w ((readLimits host limitsFile?).run w).1 ((readLimits host limitsFile?).run w).2 := by
  cases limitsFile? with
  | none => exact .unnamed w
  | some path => exact .file (Limits.holds_ofFile path _)

/-- What a request asks for is a job with the solver of a backend and the limits that the request names. -/
theorem run_eq_arrange {m : Type → Type} [Monad m] (host : Host m) (request : Request)
    (build : m (Except ModelError (Model Float))) :
    run host request build =
      arrange host.log (request.backend.solver host) (readLimits host request.limitsFile?) build := by
  refine congrArg (readLimits host request.limitsFile? >>= ·) (funext fun answer => ?_)
  cases answer <;> rfl

/-- The name that the solver of a backend goes by. -/
theorem name_solver {m : Type → Type} [Monad m] (host : Host m) (backend : Backend) :
    (backend.solver host).name = match backend with
      | .simplex => "simplex"
      | .scip => "scip" := by
  cases backend <;> rfl

theorem orderly_arrange (host : Host (StateM σ)) (build : StateM σ (Except ModelError (Model Float))) (w : σ)
    (solver : Solver (StateM σ) Float) (source : StateM σ (Except LimitsError (Limits Float))) :
    ∃ calls result w',
      (arrange (fun event => unwatched (host.log event)) solver.watched (watched .read source)
            (watched .build build)).run ([], w) = (result, .read (source.run w).1 :: calls, w') ∧
        (arrange host.log solver source build).run w = (result, w') ∧
        Orderly solver.name (source.run w).1 calls result := by
  obtain ⟨calls, result, w', hwatched, hplain, hcourse⟩ := course_arrange host.log solver build source [] w
  exact ⟨calls, result, w', hwatched, hplain, hcourse.orderly⟩

/-- **A job asks for each thing once, and in order.** Whatever the solver does and whatever the model and the
limits are made of, a job that is given its limits makes the calls that it should and no others, and its
result is what the answers make it. So does a job that reads its limits, which it does before all else; and so
does what a request asks for, whose limits are those that the file holds which it names. Writing the calls down
changes neither the result nor what is left of the machine. -/
theorem jobs_orderly (host : Host (StateM σ)) (build : StateM σ (Except ModelError (Model Float))) (w : σ) :
    (∀ (solver : Solver (StateM σ) Float) (limits : Limits Float), ∃ calls result w',
      (buildAndSolve (fun event => unwatched (host.log event)) solver.watched limits
            (watched .build build)).run ([], w) = (result, calls, w') ∧
        (buildAndSolve host.log solver limits build).run w = (result, w') ∧
        Orderly solver.name (.ok limits) calls result) ∧
      (∀ (solver : Solver (StateM σ) Float) (source : StateM σ (Except LimitsError (Limits Float))),
        ∃ calls result w',
          (arrange (fun event => unwatched (host.log event)) solver.watched (watched .read source)
                (watched .build build)).run ([], w) = (result, .read (source.run w).1 :: calls, w') ∧
            (arrange host.log solver source build).run w = (result, w') ∧
            Orderly solver.name (source.run w).1 calls result) ∧
      ∀ request : Request, run host request build =
          arrange host.log (request.backend.solver host) (readLimits host request.limitsFile?) build ∧
        ∃ source w₁ calls result w', Reads host request.limitsFile? w source w₁ ∧
          (readLimits host request.limitsFile?).run w = (source, w₁) ∧
          (arrange (fun event => unwatched (host.log event)) (request.backend.solver host).watched
                (watched .read (readLimits host request.limitsFile?)) (watched .build build)).run ([], w) =
            (result, .read source :: calls, w') ∧
          (run host request build).run w = (result, w') ∧
          Orderly (match request.backend with
            | .simplex => "simplex"
            | .scip => "scip") source calls result := by
  refine ⟨fun solver limits => ?_, orderly_arrange host build w,
    fun request => ⟨run_eq_arrange host request build, ?_⟩⟩
  · obtain ⟨calls, result, w', hwatched, hplain, hcourse⟩ :=
      course_buildAndSolve host.log solver limits build [] w
    exact ⟨calls, result, w', hwatched, hplain, hcourse.orderly⟩
  · obtain ⟨calls, result, w', hwatched, hplain, horderly⟩ :=
      orderly_arrange host build w (request.backend.solver host) (readLimits host request.limitsFile?)
    rw [← run_eq_arrange] at hplain
    rw [name_solver] at horderly
    exact ⟨_, _, calls, result, w', reads_readLimits host request.limitsFile? w, rfl, hwatched, hplain,
      horderly⟩

end Job

end LinearProgram
