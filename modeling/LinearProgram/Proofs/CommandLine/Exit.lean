import Mathlib
import LinearProgram.CommandLine
import LinearProgram.Proofs.Job.Course
import LinearProgram.Proofs.Job.Requests

/-!
# Exit codes and what is printed

A caller of the program goes by its exit code and reads its standard output. After `solve` the code is zero
exactly if the job has an outcome, and then the report on it is all that is printed; after `check-config` it is
zero exactly if the file holds limits, and then these are listed. In every other case the code is one and
nothing is printed (`exits_as_promised`).

What leads to which code is said in terms of what the machine was asked and what it answered: what is in the
file of limits, what the clock showed, and what became of the engine.
-/

namespace LinearProgram.CommandLine

/-! ## What is promised -/

/-- The program has failed, and has printed no part of a report. -/
def Result.Fails (left : Result) : Prop :=
  left.exitCode = 1 ∧ left.stdout = ""

/-- What follows when an attempt to solve a model has ended in a solution: an error is a failure, and whatever
else the attempt ends in is an outcome. -/
structure Follows (model : Model Float) (s : Solution Float) (answer : Except Failure (Outcome Float))
    (left : Result) : Prop where
  failed : s.status = .error → left.Fails
  solved : s.status ≠ .error → left.exitCode = 0 ∧ answer = .ok ⟨model, s⟩

/-- What `solve` leaves behind with the engine, when `ts` is what the engine's solver has asked. -/
structure EngineLeaves (model : Model Float) (limits : Limits Float) (ts : List Transaction)
    (answer : Except Failure (Outcome Float)) (left : Result) : Prop where
  /-- The machine is asked what a solve with the engine asks, and the result of that decides. -/
  decided : ∃ found, Engine.Contained none model limits ts found ∧ (∀ e, found = .error e → left.Fails) ∧
    ∀ s, found = .ok s → Follows model s answer left
  /-- An engine that is not there is a failure. -/
  unlocated : .findProgram "scip" none ∈ ts → left.Fails
  /-- Files that cannot be made are a failure. -/
  unmade : ∀ e, (.makeScratch (.error e) ∈ ts ∨ ∃ path text, .store path text (.error e) ∈ ts) → left.Fails
  /-- An engine that cannot be started is a failure. -/
  unstarted : ∀ program args e, .start program args (.error e) ∈ ts → left.Fails
  /-- An engine that ends without success is a failure. -/
  failed : ∀ program args finished, .start program args (.ok finished) ∈ ts → finished.exit ≠ .code 0 →
    left.Fails
  /-- After success the solution file is read, and its status decides. -/
  ended : ∀ program args finished, .start program args (.ok finished) ∈ ts → finished.exit = .code 0 →
    ∃ directory contents, ts.getLast? = some (.contents (directory ++ "/model.sol") contents) ∧
      ∀ status, SolutionFile.Gives contents status →
        (status = .error → left.Fails) ∧ (status ≠ .error → left.exitCode = 0)

/-- What `solve` leaves behind when `ts` is what was asked of the machine and its job has come to `answer`. -/
structure SolveLeaves (request : Request) (format : Format) (model : Model Float) (ts : List Transaction)
    (answer : Except Failure (Outcome Float)) (left : Result) : Prop where
  /-- The exit code is zero exactly if there is an outcome. -/
  success : left.exitCode = 0 ↔ ∃ outcome, answer = .ok outcome
  /-- What is printed is the report on the outcome, in the format asked for. -/
  report : ∀ outcome, answer = .ok outcome →
    (format = .json → left.stdout = Report.documentText outcome.model outcome.solution) ∧
      (format = .text → left.stdout = Report.text outcome.model outcome.solution)
  failure : (∀ outcome, answer ≠ .ok outcome) → left.Fails
  /-- Limits that cannot be had are a failure, and nothing else is asked then. With limits the solver asks, and
  its attempt decides: for the simplex method the one that the run makes on the clock that it has read. -/
  course : ∃ asked source later, Job.Obtains request.limitsFile? asked source ∧ ts = asked ++ later ∧
    (∀ e, source = .error e → later = [] ∧ left.Fails) ∧
      ∀ limits, source = .ok limits →
        (request.backend = .simplex → ∃ r : Simplex.Readings, later = r.transactions ∧
          Follows model (Simplex.solve .shipped r.clock model limits) answer left) ∧
        (request.backend = .scip → EngineLeaves model limits later answer left)

/-- The line on a limit, if it is set. -/
def limitLine (name : String) : Option Float → String
  | none => ""
  | some value => "  " ++ name ++ " = " ++ Decimal.plain value ++ "\n"

/-- What `check-config` leaves behind when this is in the file. -/
structure CheckLeaves (path : String) (contents : Except FileError ByteArray) (left : Result) : Prop where
  /-- The exit code is zero exactly if there are limits in the file. -/
  success : left.exitCode = 0 ↔ ∃ limits, Limits.Holds path contents (.ok limits)
  failure : (∀ limits, ¬Limits.Holds path contents (.ok limits)) → left.Fails
  /-- The limits that are set are listed, each with its value and once, and no others. -/
  listed : ∀ limits, Limits.Holds path contents (.ok limits) → left.stdout =
    "✓ " ++ path ++ " is valid\n"
      ++ (if limits.gap? = none ∧ limits.time? = none
        then "  no options set; backend defaults apply\n" else "")
      ++ (limitLine "gap-tolerance" limits.gap? ++ limitLine "time-limit-seconds" limits.time?)

/-! ## What is kept after solving -/

theorem fails_of_error (format : Format) {answer : Except Failure (Outcome Float)} {f : Failure}
    (h : answer = .error f) : (solved format answer).Fails := by
  subst h
  exact ⟨rfl, rfl⟩

theorem follows_conclude (format : Format) (name : String) (model : Model Float) (s : Solution Float) :
    Follows model s (Job.conclude name model (.ok s)) (solved format (Job.conclude name model (.ok s))) where
  failed h := fails_of_error format (if_pos h)
  solved h := by
    have hanswer : Job.conclude name model (.ok s) = .ok ⟨model, s⟩ := if_neg h
    rw [hanswer]
    exact ⟨rfl, rfl⟩

theorem Follows.of_status {model : Model Float} {s : Solution Float}
    {answer : Except Failure (Outcome Float)} {left : Result} (h : Follows model s answer left)
    {status : Status} (hstatus : s.status = status) :
    (status = .error → left.Fails) ∧ (status ≠ .error → left.exitCode = 0) := by
  subst hstatus
  exact ⟨h.failed, fun hne => (h.solved hne).1⟩

theorem engineLeaves_conclude (format : Format) (name : String) {model : Model Float}
    {limits : Limits Float} {ts : List Transaction} {found : Except SolverError (Solution Float)}
    (h : Engine.Contained none model limits ts found) :
    EngineLeaves model limits ts (Job.conclude name model found)
      (solved format (Job.conclude name model found)) := by
  have hfails : ∀ e, found = .error e → (solved format (Job.conclude name model found)).Fails := by
    rintro e rfl
    exact fails_of_error format rfl
  have hfollows : ∀ s, found = .ok s → Follows model s (Job.conclude name model found)
      (solved format (Job.conclude name model found)) := by
    rintro s rfl
    exact follows_conclude format name model s
  refine ⟨⟨found, h, hfails, hfollows⟩, fun hmem => ?_, fun e hmem => ?_, fun program args e hmem => ?_,
    fun program args finished hmem hexit => ?_, fun program args finished hmem hexit => ?_⟩
  · obtain ⟨reason, hfound⟩ := (h.unavailable "scip").mpr ⟨rfl, .inl ⟨_, hmem, .found⟩⟩
    exact hfails _ hfound
  · exact hfails _ ((h.files e).mpr hmem)
  · obtain ⟨reason, hfound⟩ := (h.unavailable "scip").mpr ⟨rfl, .inr ⟨program, args, e, hmem⟩⟩
    exact hfails _ hfound
  · obtain ⟨t, directory, later, s, -, -, -, hfound, hfailure, -⟩ := h.started program args finished hmem
    exact (hfollows s hfound).failed (hfailure hexit).2
  · obtain ⟨t, directory, later, s, hts, -, -, hfound, -, hsuccess⟩ := h.started program args finished hmem
    obtain ⟨contents, rfl, hstatus⟩ := hsuccess hexit
    refine ⟨directory, contents, by simp [hts], fun status hgives => ?_⟩
    exact (hfollows s hfound).of_status ((hstatus status).mpr hgives)

theorem solveLeaves_solved (format : Format) {request : Request} {model : Model Float}
    {ts : List Transaction} {answer : Except Failure (Outcome Float)} (h : Job.Asks request model ts answer) :
    SolveLeaves request format model ts answer (solved format answer) where
  success := by
    cases answer with
    | error f => simp [solved, Result.failure]
    | ok outcome => simp [solved, Result.success]
  report := by
    rintro outcome rfl
    cases format with
    | json => exact ⟨fun _ => rfl, nofun⟩
    | text => exact ⟨nofun, fun _ => rfl⟩
  failure hnone := by
    cases answer with
    | error f => exact fails_of_error format rfl
    | ok outcome => exact absurd rfl (hnone outcome)
  course := by
    cases h with
    | misread hasked =>
      exact ⟨ts, _, [], hasked, (List.append_nil ts).symm, fun _ _ => ⟨rfl, fails_of_error format rfl⟩, nofun⟩
    | solved hasked hfound =>
      refine ⟨_, _, _, hasked, rfl, nofun, ?_⟩
      rintro _ ⟨⟩
      obtain ⟨limitsFile?, backend⟩ := request
      cases hfound with
      | simplex r => exact ⟨fun _ => ⟨r, rfl, follows_conclude format _ model _⟩, nofun⟩
      | scip hcontained => exact ⟨nofun, fun _ => engineLeaves_conclude format _ hcontained⟩

/-! ## What is kept after checking -/

theorem join_limitLines (limits : Limits Float) :
    String.join (limits.toList.map fun e => "  " ++ e.1.key ++ " = " ++ Decimal.plain e.2 ++ "\n") =
      limitLine "gap-tolerance" limits.gap? ++ limitLine "time-limit-seconds" limits.time? := by
  obtain ⟨gap?, time?⟩ := limits
  cases gap? <;> cases time? <;>
    simp [limitLine, Limits.toList, Limit.all, Limits.get?, Limit.key, String.join]

theorem isEmpty_iff {limits : Limits Float} :
    limits.isEmpty = true ↔ limits.gap? = none ∧ limits.time? = none := by
  obtain ⟨gap?, time?⟩ := limits
  cases gap? <;> cases time? <;> simp [Limits.isEmpty, Limits.toList, Limit.all, Limits.get?]

theorem checkLeaves_checked (path : String) (contents : Except FileError ByteArray) :
    CheckLeaves path contents (checked path (Limits.ofFile path contents)) := by
  cases hread : Limits.ofFile path contents with
  | error e =>
    have hnone (limits : Limits Float) : ¬Limits.Holds path contents (.ok limits) := by
      simp [Limits.holds_ok_iff, hread]
    refine ⟨iff_of_false (by simp [checked, Result.failure]) fun ⟨limits, h⟩ => hnone limits h,
      fun _ => ⟨rfl, rfl⟩, fun limits h => absurd h (hnone limits)⟩
  | ok limits =>
    have hholds : Limits.Holds path contents (.ok limits) := Limits.holds_ok_iff.mpr hread
    refine ⟨iff_of_true rfl ⟨limits, hholds⟩, fun hnone => absurd hholds (hnone limits), ?_⟩
    rintro limits' hholds'
    obtain rfl : limits = limits' := Except.ok.inj (hread.symm.trans (Limits.holds_ok_iff.mp hholds'))
    simp only [checked, Result.success, isEmpty_iff, join_limitLines]

section Run

variable {σ : Type} (host : Host (StateM σ)) (w : σ) {args : List String}

/-- What is promised of a command to solve. -/
def SolvesAsPromised (args : List String) (request : Request) (format : Format) : Prop :=
  ∃ model ts answer left w', Production.model = .ok model ∧
    (run host.recorded args).run ([], w) = (left, ts, w') ∧ (run host args).run w = (left, w') ∧
    (Job.run host request (pure Production.model)).run w = (answer, w') ∧
    SolveLeaves request format model ts answer left

/-- What is promised of a command to check a file, for which no job that reads it fails if it is passed. -/
def ChecksAsPromised (args : List String) (path : String) : Prop :=
  ∃ contents left w', (run host.recorded args).run ([], w) = (left, [.contents path contents], w') ∧
    (run host args).run w = (left, w') ∧ CheckLeaves path contents left ∧
    ∀ request : Request, request.limitsFile? = some path →
      (left.exitCode = 0 ↔
        ∀ e, ((Job.run host request (pure Production.model)).run w).1 ≠ .error (.limits e))

theorem solvesAsPromised {request : Request} {format : Format}
    (hargs : parse? args = some (.solve request format)) : SolvesAsPromised host w args request format := by
  obtain ⟨model, hmodel⟩ : ∃ model, (Production.model : Except ModelError (Model Float)) = .ok model :=
    ⟨_, rfl⟩
  obtain ⟨answer, ts, w', hrecorded, hplain, hasks⟩ := Job.recorded_run host request model [] w
  have hrun {m : Type → Type} [Monad m] (host : Host m) : run host args =
      Job.run host request (pure (.ok model)) >>= fun answer => pure (solved format answer) := by
    rw [run, hargs]
    simp only [execute, hmodel]
  refine ⟨model, ts, answer, solved format answer, w', hmodel, ?_, ?_, ?_, solveLeaves_solved format hasks⟩
  · rw [hrun, StateT.run_bind, hrecorded]
    rfl
  · rw [hrun, StateT.run_bind, hplain]
    rfl
  · rw [hmodel]
    exact hplain

/-- A job fails for its limits exactly if the file holds none. -/
theorem run_ne_limits_iff {request : Request} {path : String} (hfile : request.limitsFile? = some path)
    (build : StateM σ (Except ModelError (Model Float))) :
    (∀ e, ((Job.run host request build).run w).1 ≠ .error (.limits e)) ↔
      ∃ limits, Limits.Holds path ((host.contents path).run w).1 (.ok limits) := by
  obtain ⟨calls, result, w', -, hplain, hcourse⟩ := Job.course_arrange host.log
    (request.backend.solver host) build (Job.readLimits host request.limitsFile?) [] w
  have hread : ((Job.readLimits host request.limitsFile?).run w).1 =
      Limits.ofFile path ((host.contents path).run w).1 := by
    rw [hfile]
    rfl
  rw [← Job.run_eq_arrange] at hplain
  rw [hread] at hcourse
  simp only [hplain, ne_eq, hcourse.misread_iff, Limits.holds_ok_iff]
  cases Limits.ofFile path ((host.contents path).run w).1 <;> simp

theorem checksAsPromised {path : String} (hargs : parse? args = some (.checkConfig path)) :
    ChecksAsPromised host w args path := by
  have hleaves := checkLeaves_checked path ((host.contents path).run w).1
  refine ⟨_, _, ((host.contents path).run w).2, ?_, ?_, hleaves, fun request hfile => ?_⟩
  · rw [run, hargs]
    rfl
  · rw [run, hargs]
    rfl
  · rw [run_ne_limits_iff host w hfile]
    exact hleaves.success

end Run

/-- **Exit codes and reports are as promised.** Whatever is in the file of limits, and whatever the machine, its
clock and the engine on it do, every command to solve ends with code zero and the report on its outcome, or
without an outcome with code one and nothing printed. A file is passed by `check-config` exactly if no job that
reads it fails for its limits, and then what is listed are the limits that are set. -/
theorem exits_as_promised {σ : Type} (host : Host (StateM σ)) (w : σ) :
    (∀ args request format, parse? args = some (.solve request format) →
      SolvesAsPromised host w args request format) ∧
    ∀ args path, parse? args = some (.checkConfig path) → ChecksAsPromised host w args path :=
  ⟨fun _ _ _ hargs => solvesAsPromised host w hargs, fun _ _ hargs => checksAsPromised host w hargs⟩

/-- A machine on which one file holds a budget of a minute and every other one says that there is no solution,
and whose clock moves on by a minute with every look at it. The engine, if there is one, ends with success. -/
def desk (engine? : Option String) : Host (StateM ℕ) where
  contents path := pure (.ok (if path = "limits.json" then "[null, 60]".toUTF8
    else "solution status: infeasible
".toUTF8))
  isFile _ := pure false
  findProgram _ := pure engine?
  makeScratch := pure (.ok "/tmp/solve")
  store _ _ := pure (.ok ())
  start _ _ := pure (.ok ⟨.code 0, .empty, .empty⟩)
  log _ := pure ()
  now := modifyGet fun time => (time, time + 60000000000)

/-- The budget is used up before the first pivot, which is an outcome; a missing engine is a failure; that there
is no solution is an outcome. -/
theorem exits_as_promised_desk :
    parse? ["solve", "-climits.json"] = some (.solve ⟨some "limits.json", .simplex⟩ .text) ∧
      parse? ["solve", "-s", "SCIP"] = some (.solve ⟨none, .scip⟩ .text) ∧
      parse? ["check-config", "limits.json"] = some (.checkConfig "limits.json") ∧
      ((run (desk none) ["solve", "-climits.json"]).run 0).1 = .success
        ("Status: TIME LIMIT REACHED
Best solution found so far (not proven optimal).
"
          ++ "Objective (maximize): 0.0000

Decision variables:
"
          ++ "  x                          0.0000
  y                          0.0000

Constraints:
"
          ++ "  demand                     0.0000  (<= 40)
  labor_a                    0.0000  (<= 80)
"
          ++ "  labor_b                    0.0000  (<= 100)
") ∧
      ((run (desk none) ["solve", "-s", "SCIP"]).run 0).1 = .failure
        ("Error: Solver backend scip is unavailable: scip not found on PATH: cannot find binary path
") ∧
      ((run (desk (some "/usr/bin/scip")) ["solve", "-s", "SCIP"]).run 0).1 = .success
        "Status: INFEASIBLE
No solution exists that satisfies all constraints.
" ∧
      ((run (desk none) ["check-config", "limits.json"]).run 0).1 =
        .success "✓ limits.json is valid
  time-limit-seconds = 60
" ∧
      SolvesAsPromised (desk none) 0 ["solve", "-climits.json"] ⟨some "limits.json", .simplex⟩ .text ∧
      (∀ engine?, SolvesAsPromised (desk engine?) 0 ["solve", "-s", "SCIP"] ⟨none, .scip⟩ .text) ∧
      ChecksAsPromised (desk none) 0 ["check-config", "limits.json"] "limits.json" :=
  have hsolve : parse? ["solve", "-climits.json"] = some (.solve ⟨some "limits.json", .simplex⟩ .text) := rfl
  have hengine : parse? ["solve", "-s", "SCIP"] = some (.solve ⟨none, .scip⟩ .text) := rfl
  have hcheck : parse? ["check-config", "limits.json"] = some (.checkConfig "limits.json") := rfl
  ⟨hsolve, hengine, hcheck, by decide +kernel, by decide +kernel, by decide +kernel, by decide +kernel,
    (exits_as_promised (desk none) 0).1 _ _ _ hsolve,
    fun engine? => (exits_as_promised (desk engine?) 0).1 _ _ _ hengine,
    (exits_as_promised (desk none) 0).2 _ _ hcheck⟩

end LinearProgram.CommandLine
