import LinearProgram.Simplex.Tableau

/-!
# The simplex method in two phases

The first phase is needed when a constraint cannot be started by a slack variable. It drives the
artificial variables to zero; if that fails, no point satisfies the constraints. What is left of them in
the basis is then pivoted out or dropped with its row, and the second phase improves the objective.

Each phase pivots until no column improves its objective. A pivot on a row whose right-hand side is zero
changes the basis only; after such a pivot the entering column is the one of lowest index, so that the
bases of a stretch of such pivots do not repeat.

Before every pivot the method asks whether the deadline has passed. That is all that it asks of its
surroundings, which a monad stands for; where the answers are known beforehand, it is a function
(`climb`, `run`). What it does is recorded as a list of steps.
-/

namespace LinearProgram.Simplex

variable {K : Type}

/-- The two phases. -/
inductive Phase where
  | first
  | second
  deriving DecidableEq, Repr

/-- What the method is set to. -/
structure Settings (K : Type) where
  /-- The number of pivots after which a phase gives up. -/
  maxPivots : Nat
  /-- Numbers within this distance of zero count as zero. -/
  tolerance : K

/-- Asks whether the deadline has passed, when a phase has made so many pivots. -/
abbrev Watch (m : Type → Type) := Phase → Nat → m Bool

/-- Whether the deadline has passed when a phase has made so many pivots. -/
abbrev Deadline := Phase → Nat → Bool

/-- The deadline that never passes. -/
def Deadline.never : Deadline :=
  fun _ _ => false

/-- What the method does. -/
inductive Step where
  | pivot (row col : Nat) (degenerate : Bool)
  | converged (pivots : Nat)
  | deadline (pivots : Nat)
  | expel (row col : Nat)
  | dropRedundant (row : Nat)
  deriving DecidableEq, Repr

/-- How a phase ends. -/
inductive Ending where
  | optimal
  | unbounded
  | timeLimit
  | pivotLimit
  deriving DecidableEq, Repr

/-- A phase that has ended: how, with which tableau, and what it did. -/
structure Climb (K : Type) where
  ending : Ending
  tableau : Tableau K
  steps : List Step

/-- What the method finds out about a program. -/
inductive Verdict (K : Type) where
  | optimal (point : List K)
  | infeasible
  | unbounded
  | timeLimit (incumbent? : Option (List K))
  | pivotLimit
  deriving DecidableEq, Repr

/-- A verdict and what was done to reach it. -/
structure Run (K : Type) where
  verdict : Verdict K
  steps : List Step

variable [Scalar K] {m : Type → Type} [Monad m]

/-- The settings the program ships with: at most ten thousand pivots a phase, and a tolerance of one
billionth. -/
def Settings.shipped : Settings K :=
  ⟨10000, 1 / (1000000000 : Nat)⟩

/-- Whether a pivot on a row keeps the basic solution: its right-hand side is zero, give or take
`tolerance`. -/
def isDegenerate (tolerance : K) (t : Tableau K) (row : Nat) : Bool :=
  t.rows[row]?.any fun r => Scalar.le (Scalar.abs r.equation.rhs) tolerance

/-- Pivots until none of the first `eligible` columns improves the objective. `left` is the number of
pivots still allowed, `made` the number already made, and `lowestIndex` tells whether the last one was
degenerate. That the phase is done is noticed before a limit is, and a limit before unboundedness. -/
def climbM (tolerance : K) (eligible : Nat) (expired : Nat → m Bool) :
    (left made : Nat) → (lowestIndex : Bool) → Tableau K → m (Climb K)
  | left, made, lowestIndex, t =>
    match t.entering? tolerance eligible lowestIndex with
    | none => return ⟨.optimal, t, [.converged made]⟩
    | some col =>
      match left with
      | 0 => return ⟨.pivotLimit, t, []⟩
      | left + 1 => do
        if ← expired made then return ⟨.timeLimit, t, [.deadline made]⟩
        else match t.leaving? tolerance col with
          | none => return ⟨.unbounded, t, []⟩
          | some row =>
            let degenerate := isDegenerate tolerance t row
            let rest ← climbM tolerance eligible expired left (made + 1) degenerate (t.pivot row col)
            return { rest with steps := .pivot row col degenerate :: rest.steps }

/-- Removes the artificial variables from the basis, among the first `count` rows from the last one to
the first. A row that has a coefficient outside the artificial columns is pivoted there, whatever the
sign; a row without one says nothing about the program and is dropped. -/
def expelArtificials (tolerance : K) : (count : Nat) → Tableau K → Tableau K × List Step
  | 0, t => (t, [])
  | row + 1, t =>
    match t.rows[row]? with
    | none => expelArtificials tolerance row t
    | some r =>
      if !t.isArtificial r then expelArtificials tolerance row t
      else match t.replacement? tolerance r.equation with
        | some col =>
          let (final, steps) := expelArtificials tolerance row (t.pivot row col)
          (final, .expel row col :: steps)
        | none =>
          let (final, steps) := expelArtificials tolerance row (t.drop row)
          (final, .dropRedundant row :: steps)

/-- The second phase, from a tableau without artificial basic variables. Artificial columns are not
eligible. -/
def secondPhaseM (s : Settings K) (watch : Watch m) (t : Tableau K) : m (Run K) := do
  let climbed ← climbM s.tolerance t.firstArtificial (watch .second) s.maxPivots 0 false t
  let verdict := match climbed.ending with
    | .optimal => .optimal climbed.tableau.point
    | .unbounded => .unbounded
    | .timeLimit => .timeLimit (some climbed.tableau.point)
    | .pivotLimit => .pivotLimit
  return ⟨verdict, climbed.steps⟩

/-- The first phase, from the starting tableau, with every column eligible. -/
def firstPhaseM (s : Settings K) (watch : Watch m) (t : Tableau K) : m (Climb K) :=
  climbM s.tolerance t.numColumns (watch .first) s.maxPivots 0 false
    { t with objective := t.artificialObjective }

/-- The tableau that the first phase ended with, made ready for the second: it has the program's own
objective back, and no artificial basic variables. -/
def handOver (s : Settings K) (objective : Equation K) (t : Tableau K) : Tableau K × List Step :=
  expelArtificials s.tolerance t.rows.length { t with objective := t.price s.tolerance objective }

/-- Both phases. -/
def runM (s : Settings K) (watch : Watch m) (p : DenseProgram K) : m (Run K) := do
  let start := Tableau.ofProgram p
  if start.numArtificial = 0 then secondPhaseM s watch start
  else
    let first ← firstPhaseM s watch start
    match first.ending with
    | .unbounded => return ⟨.infeasible, first.steps⟩
    | .timeLimit => return ⟨.timeLimit none, first.steps⟩
    | .pivotLimit => return ⟨.pivotLimit, first.steps⟩
    | .optimal =>
      if first.tableau.artificialsVanish s.tolerance then
        let (ready, expelled) := handOver s start.objective first.tableau
        let second ← secondPhaseM s watch ready
        return ⟨second.verdict, first.steps ++ expelled ++ second.steps⟩
      else return ⟨.infeasible, first.steps⟩

/-! ## Where the answers are known -/

/-- The phase in which the deadline has passed after so many pivots, or not. -/
def climb (tolerance : K) (eligible : Nat) (expired : Nat → Bool) (left made : Nat) (lowestIndex : Bool)
    (t : Tableau K) : Climb K :=
  Id.run (climbM tolerance eligible (fun made => pure (expired made)) left made lowestIndex t)

/-- The second phase under a deadline. -/
def secondPhase (s : Settings K) (deadline : Deadline) (t : Tableau K) : Run K :=
  Id.run (secondPhaseM s (fun phase made => pure (deadline phase made)) t)

/-- The first phase under a deadline. -/
def firstPhase (s : Settings K) (deadline : Deadline) (t : Tableau K) : Climb K :=
  Id.run (firstPhaseM s (fun phase made => pure (deadline phase made)) t)

/-- Both phases under a deadline. -/
def run (s : Settings K) (deadline : Deadline) (p : DenseProgram K) : Run K :=
  Id.run (runM s (fun phase made => pure (deadline phase made)) p)

theorem secondPhase_eq (s : Settings K) (deadline : Deadline) (t : Tableau K) :
    secondPhase s deadline t =
      let climbed := climb s.tolerance t.firstArtificial (deadline .second) s.maxPivots 0 false t
      ⟨match climbed.ending with
        | .optimal => .optimal climbed.tableau.point
        | .unbounded => .unbounded
        | .timeLimit => .timeLimit (some climbed.tableau.point)
        | .pivotLimit => .pivotLimit, climbed.steps⟩ :=
  rfl

theorem run_eq (s : Settings K) (deadline : Deadline) (p : DenseProgram K) :
    run s deadline p =
      let start := Tableau.ofProgram p
      if start.numArtificial = 0 then secondPhase s deadline start
      else
        let first := firstPhase s deadline start
        match first.ending with
        | .unbounded => ⟨.infeasible, first.steps⟩
        | .timeLimit => ⟨.timeLimit none, first.steps⟩
        | .pivotLimit => ⟨.pivotLimit, first.steps⟩
        | .optimal =>
          if first.tableau.artificialsVanish s.tolerance then
            let ready := handOver s start.objective first.tableau
            let second := secondPhase s deadline ready.1
            ⟨second.verdict, first.steps ++ ready.2 ++ second.steps⟩
          else ⟨.infeasible, first.steps⟩ := by
  have hfirst : Id.run (firstPhaseM s (fun phase made => pure (deadline phase made)) (.ofProgram p)) =
      firstPhase s deadline (.ofProgram p) := rfl
  unfold run runM
  dsimp only
  split
  · rfl
  · rw [Id.run_bind, hfirst]
    cases (firstPhase s deadline (.ofProgram p)).ending with
    | optimal =>
      dsimp only
      split <;> rfl
    | unbounded | timeLimit | pivotLimit => rfl

end LinearProgram.Simplex
