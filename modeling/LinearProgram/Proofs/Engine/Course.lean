import Mathlib
import LinearProgram.Engine.Solver
import LinearProgram.Proofs.Engine.Outcome
import LinearProgram.Proofs.Host.Record

/-!
# The course of a solve with the external engine

A solve with the engine makes a handful of requests, one after the other, and there are six ways in which it
can go (`Course`). Whatever the machine and the engine do, it goes in one of them (`recorded_solve`), so that
what holds in each of the six holds of every solve (`solve_contained`).
-/

namespace LinearProgram.Engine

/-- The answer to the request for the engine's program is that it is at `program`. -/
inductive Locates : Option String → Transaction → String → Prop
  | given (path : String) : Locates (some path) (.isFile path true) path
  | found (path : String) : Locates none (.findProgram "scip" (some path)) path

/-- The answer to the request for the engine's program is that there is none. -/
inductive Misses : Option String → Transaction → Prop
  | given (path : String) : Misses (some path) (.isFile path false)
  | found : Misses none (.findProgram "scip" none)

/-- The requests before the start of the engine, after its program was located. -/
def preparations (directory : String) (model : Model Float) : List Transaction :=
  [.makeScratch (.ok directory), .store (directory ++ "/model.lp") (ModelFile.text model) (.ok ())]

/-- How a solve can go: its requests with the answers, and its result. -/
inductive Course (path? : Option String) (model : Model Float) (limits : Limits Float) :
    List Transaction → Except SolverError (Solution Float) → Prop
  | unlocated {t} (ht : Misses path? t) (reason : String) :
      Course path? model limits [t] (.error (unavailable reason))
  | noScratch {t program} (ht : Locates path? t program) (e : FileError) :
      Course path? model limits [t, .makeScratch (.error e)] (.error (.files e))
  | notStored {t program} (ht : Locates path? t program) (directory : String) (e : FileError) :
      Course path? model limits
        [t, .makeScratch (.ok directory),
          .store (directory ++ "/model.lp") (ModelFile.text model) (.error e)]
        (.error (.files e))
  | notStarted {t program} (ht : Locates path? t program) (directory : String) (e : FileError)
      (reason : String) :
      Course path? model limits
        (t :: preparations directory model ++ [.start program (arguments directory limits) (.error e)])
        (.error (unavailable reason))
  | failed {t program} (ht : Locates path? t program) (directory : String) {finished : Finished}
      (hexit : finished.exit ≠ .code 0) :
      Course path? model limits
        (t :: preparations directory model ++ [.start program (arguments directory limits) (.ok finished)])
        (.ok (failure finished))
  | ended {t program} (ht : Locates path? t program) (directory : String) {finished : Finished}
      (hexit : finished.exit = .code 0) (answer : Except FileError ByteArray) :
      Course path? model limits
        (t :: preparations directory model ++
          [.start program (arguments directory limits) (.ok finished),
            .contents (directory ++ "/model.sol") answer])
        (.ok (SolutionFile.solutionIn model answer))

/-! ## Every solve takes one of the courses -/

section Run

variable {σ : Type} (host : Host (StateM σ)) (path? : Option String) (model : Model Float)
  (limits : Limits Float)

theorem recorded_locate :
    Recorded (locate host.recorded path?) (locate host path?) fun new result => ∃ t, new = [t] ∧
      match result with
      | .ok program => Locates path? t program
      | .error e => Misses path? t ∧ ∃ reason, e = unavailable reason := by
  cases path? with
  | some path =>
    refine (Recorded.noting (.isFile path) _).bind fun new answer hnew => ?_
    subst hnew
    cases answer with
    | true => exact .pure ⟨_, rfl, .given path⟩
    | false => exact .pure ⟨_, rfl, .given path, _, rfl⟩
  | none =>
    refine (Recorded.noting (.findProgram solverName) _).bind fun new answer hnew => ?_
    subst hnew
    cases answer with
    | some path => exact .pure ⟨_, rfl, .found path⟩
    | none => exact .pure ⟨_, rfl, .found, _, rfl⟩

theorem recorded_conclude (directory : String) (finished : Finished) :
    Recorded (conclude host.recorded directory model finished) (conclude host directory model finished)
      fun new solution => finished.exit ≠ .code 0 ∧ new = [] ∧ solution = failure finished ∨
        finished.exit = .code 0 ∧ ∃ answer, new = [.contents (solutionPath directory) answer] ∧
          solution = SolutionFile.solutionIn model answer := by
  by_cases hexit : finished.exit = .code 0
  · simp only [conclude, if_pos hexit]
    refine (Recorded.noting (.contents _) _).bind fun new answer hnew => ?_
    subst hnew
    exact .pure (.inr ⟨hexit, answer, rfl, rfl⟩)
  · simp only [conclude, if_neg hexit]
    exact .pure (.inl ⟨hexit, rfl, rfl⟩)

theorem recorded_exchange (program : String) :
    Recorded (exchange host.recorded program model limits) (exchange host program model limits)
      fun new result => ∀ t, Locates path? t program → Course path? model limits (t :: new) result := by
  refine (Recorded.forM _ host.log).bind fun new _ hnew => ?_
  subst hnew
  refine (Recorded.noting .makeScratch _).bind fun new answer hnew => ?_
  subst hnew
  cases answer with
  | error e => exact .pure fun t ht => .noScratch ht e
  | ok directory =>
  refine (Recorded.noting (.store _ _) _).bind fun new answer hnew => ?_
  subst hnew
  cases answer with
  | error e => exact .pure fun t ht => .notStored ht directory e
  | ok =>
  refine (Recorded.unnoted _).bind fun new _ hnew => ?_
  subst hnew
  refine (Recorded.noting (.start _ _) _).bind fun new answer hnew => ?_
  subst hnew
  cases answer with
  | error e => exact .pure fun t ht => .notStarted ht directory e _
  | ok finished =>
  refine (Recorded.forM _ _).bind fun new _ hnew => ?_
  subst hnew
  refine (recorded_conclude host model directory finished).bind fun new solution hnew => ?_
  refine (Recorded.unnoted _).bind fun new' _ hnew' => ?_
  subst hnew'
  refine .pure fun t ht => ?_
  rcases hnew with ⟨hexit, rfl, rfl⟩ | ⟨hexit, answer, rfl, rfl⟩
  · exact .failed ht directory hexit
  · exact .ended ht directory hexit answer

theorem recorded_solve :
    Recorded (solve host.recorded path? model limits) (solve host path? model limits)
      (Course path? model limits) := by
  refine (recorded_locate host path?).bind fun new result hnew => ?_
  obtain ⟨t, rfl, hresult⟩ := hnew
  cases result with
  | error e =>
    obtain ⟨ht, reason, rfl⟩ := hresult
    exact .pure (.unlocated ht reason)
  | ok program =>
    exact (recorded_exchange host path? model limits program).mono fun new result h => h t hresult

end Run

/-! ## What holds in every course -/

/-- The command for a limit, which ends in its value, if the limit is set; no command if it is not. -/
def setting (words : String) : Option Float → List String
  | none => []
  | some value => [words ++ Decimal.plain value]

/-- The arguments tell the engine to read the model in a directory, to keep every limit that is set, each with
its value and once, and no other limit, and then to optimize and to write its solution. -/
def Instructs (directory : String) (limits : Limits Float) (args : List String) : Prop :=
  args = ["-c", String.intercalate " "
    (["read " ++ (directory ++ "/model.lp"), "set misc allowstrongdualreds FALSE",
        "set misc allowweakdualreds FALSE"]
      ++ setting "set limits gap " limits.gap? ++ setting "set limits time " limits.time?
      ++ ["optimize", "write solution " ++ (directory ++ "/model.sol"), "quit"])]

theorem instructs_arguments (directory : String) (limits : Limits Float) :
    Instructs directory limits (arguments directory limits) := by
  obtain ⟨gap?, time?⟩ := limits
  cases gap? <;> cases time? <;> rfl

/-- A run of the engine: it was told what to do, only the solution file was asked for after it, and only after
success, and the result is a solution whose status the end of the run and that file decide. -/
inductive Session (path? : Option String) (model : Model Float) (limits : Limits Float) (program : String)
    (args : List String) (finished : Finished) (ts : List Transaction)
    (result : Except SolverError (Solution Float)) : Prop where
  | intro (t : Transaction) (directory : String) (later : List Transaction) (solution : Solution Float)
      (requests : ts = t :: .makeScratch (.ok directory) ::
        .store (directory ++ "/model.lp") (ModelFile.text model) (.ok ()) ::
          .start program args (.ok finished) :: later)
      (located : Locates path? t program)
      (instructed : Instructs directory limits args)
      (answered : result = .ok solution)
      (failure : finished.exit ≠ .code 0 → later = [] ∧ solution.status = .error)
      (success : finished.exit = .code 0 → ∃ answer,
        later = [.contents (directory ++ "/model.sol") answer] ∧
          ∀ status, solution.status = status ↔ SolutionFile.Gives answer status)

/-- Whatever the engine does is contained in the result of the solve. -/
structure Contained (path? : Option String) (model : Model Float) (limits : Limits Float)
    (ts : List Transaction) (result : Except SolverError (Solution Float)) : Prop where
  /-- The program is located first, and a directory is made only if there is a program. -/
  located : ∃ t rest, ts = t :: rest ∧ (Misses path? t ∧ rest = [] ∨
    ∃ program answer later, Locates path? t program ∧ rest = .makeScratch answer :: later)
  /-- Unavailable is an engine that is not located or cannot be started. -/
  unavailable : ∀ solver, (∃ reason, result = .error (.unavailable solver reason)) ↔ solver = "scip" ∧
    ((∃ t ∈ ts, Misses path? t) ∨ ∃ program args e, .start program args (.error e) ∈ ts)
  /-- Every other error is one of the files that a solve makes. -/
  files : ∀ e, result = .error (.files e) ↔
    .makeScratch (.error e) ∈ ts ∨ ∃ path text, .store path text (.error e) ∈ ts
  /-- An engine that was started leads to a solution, and nothing else does. -/
  answered : (∃ s, result = .ok s) ↔ ∃ program args finished, .start program args (.ok finished) ∈ ts
  /-- An engine that was started is the only one. -/
  started : ∀ program args finished, .start program args (.ok finished) ∈ ts →
    Session path? model limits program args finished ts result

theorem misses_iff {path? : Option String} {t : Transaction} : Misses path? t ↔
    (∃ path, path? = some path ∧ t = .isFile path false) ∨ path? = none ∧ t = .findProgram "scip" none := by
  constructor
  · rintro (path | _)
    · exact .inl ⟨path, rfl, rfl⟩
    · exact .inr ⟨rfl, rfl⟩
  · rintro (⟨path, rfl, rfl⟩ | ⟨rfl, rfl⟩)
    · exact .given path
    · exact .found

namespace Course

variable {path? : Option String} {model : Model Float} {limits : Limits Float}
  {ts : List Transaction} {result : Except SolverError (Solution Float)}

theorem located (h : Course path? model limits ts result) :
    ∃ t rest, ts = t :: rest ∧ (Misses path? t ∧ rest = [] ∨
      ∃ program answer later, Locates path? t program ∧ rest = .makeScratch answer :: later) := by
  cases h with
  | unlocated ht reason => exact ⟨_, _, rfl, .inl ⟨ht, rfl⟩⟩
  | noScratch ht e => exact ⟨_, _, rfl, .inr ⟨_, _, _, ht, rfl⟩⟩
  | notStored ht directory e => exact ⟨_, _, rfl, .inr ⟨_, _, _, ht, rfl⟩⟩
  | notStarted ht directory e reason => exact ⟨_, _, rfl, .inr ⟨_, _, _, ht, rfl⟩⟩
  | failed ht directory hexit => exact ⟨_, _, rfl, .inr ⟨_, _, _, ht, rfl⟩⟩
  | ended ht directory hexit answer => exact ⟨_, _, rfl, .inr ⟨_, _, _, ht, rfl⟩⟩

theorem unavailable_iff {solver : String} (h : Course path? model limits ts result) :
    (∃ reason, result = .error (.unavailable solver reason)) ↔ solver = "scip" ∧
      ((∃ t ∈ ts, Misses path? t) ∨ ∃ program args e, .start program args (.error e) ∈ ts) := by
  cases h with
  | unlocated ht reason => simp [unavailable, solverName, ht, eq_comm]
  | notStarted ht directory e reason =>
    cases ht <;> simp [unavailable, solverName, misses_iff, preparations, eq_comm]
  | noScratch ht => cases ht <;> simp [misses_iff]
  | notStored ht => cases ht <;> simp [misses_iff]
  | failed ht => cases ht <;> simp [misses_iff, preparations]
  | ended ht => cases ht <;> simp [misses_iff, preparations]

theorem files_iff {e : FileError} (h : Course path? model limits ts result) :
    result = .error (.files e) ↔
      .makeScratch (.error e) ∈ ts ∨ ∃ path text, .store path text (.error e) ∈ ts := by
  cases h with
  | unlocated ht => cases ht <;> simp [unavailable]
  | noScratch ht => cases ht <;> simp [eq_comm]
  | notStored ht => cases ht <;> simp [eq_comm]
  | notStarted ht => cases ht <;> simp [unavailable, preparations]
  | failed ht => cases ht <;> simp [preparations]
  | ended ht => cases ht <;> simp [preparations]

theorem answered_iff (h : Course path? model limits ts result) :
    (∃ s, result = .ok s) ↔ ∃ program args finished, .start program args (.ok finished) ∈ ts := by
  cases h with
  | unlocated ht => cases ht <;> simp
  | noScratch ht => cases ht <;> simp
  | notStored ht => cases ht <;> simp
  | notStarted ht => cases ht <;> simp [preparations]
  | failed ht => cases ht <;> simp [preparations]
  | ended ht => cases ht <;> simp [preparations]

theorem started {program : String} {args : List String} {finished : Finished}
    (h : Course path? model limits ts result) (hstart : .start program args (.ok finished) ∈ ts) :
    Session path? model limits program args finished ts result := by
  cases h with
  | unlocated ht => cases ht <;> simp at hstart
  | noScratch ht => cases ht <;> simp at hstart
  | notStored ht => cases ht <;> simp at hstart
  | notStarted ht => cases ht <;> simp [preparations] at hstart
  | failed ht directory hexit =>
    obtain ⟨rfl, rfl, rfl⟩ : program = _ ∧ args = _ ∧ finished = _ := by
      cases ht <;> simpa [preparations] using hstart
    exact ⟨_, directory, [], _, rfl, ht, instructs_arguments directory limits, rfl,
      fun _ => ⟨rfl, rfl⟩, fun hsuccess => absurd hsuccess hexit⟩
  | ended ht directory hexit answer =>
    obtain ⟨rfl, rfl, rfl⟩ : program = _ ∧ args = _ ∧ finished = _ := by
      cases ht <;> simpa [preparations] using hstart
    exact ⟨_, directory, _, _, rfl, ht, instructs_arguments directory limits, rfl,
      fun hfailure => absurd hexit hfailure,
      fun _ => ⟨answer, rfl, fun _ => SolutionFile.status_solutionIn_iff⟩⟩

theorem contained (h : Course path? model limits ts result) : Contained path? model limits ts result where
  located := h.located
  unavailable _ := h.unavailable_iff
  files _ := h.files_iff
  answered := h.answered_iff
  started _ _ _ := h.started

end Course

/-- **Nothing that the engine does escapes.** On every machine and with every engine, and whether a record of the
requests is kept or not, a solve has a result, and the requests with their answers say which. -/
theorem solve_contained {σ : Type} (host : Host (StateM σ)) (path? : Option String) (model : Model Float)
    (limits : Limits Float) (w : σ) :
    ∃ ts result w', (solve host.recorded path? model limits).run ([], w) = (result, ts, w') ∧
      (solve host path? model limits).run w = (result, w') ∧ Contained path? model limits ts result := by
  obtain ⟨result, ts, w', hrecorded, hsolve, hcourse⟩ := recorded_solve host path? model limits [] w
  exact ⟨ts, result, w', hrecorded, hsolve, hcourse.contained⟩

end LinearProgram.Engine
