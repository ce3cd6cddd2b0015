import Mathlib
import LinearProgram.Proofs.Simplex.Climb
import LinearProgram.Proofs.Simplex.Course

/-!
# Phases as sequences of stages

What the next pivot of a phase is depends on the tableau and on whether the last pivot was degenerate,
and on nothing else: limits only decide where the sequence of pivots is cut off. `Stage.after` is that
sequence, and a phase that has made so many pivots stands at that place of it (`climb_course`). Two
phases from the same stage are therefore two places of one sequence.
-/

namespace LinearProgram.Simplex

/-- Where a phase stands between two pivots: its tableau, and whether the last pivot was degenerate, so
that the column of lowest index enters next. -/
structure Stage (K : Type) where
  lowestIndex : Bool
  tableau : Tableau K

/-- Whether a step is a pivot of a phase. -/
def Step.isPivot : Step → Bool
  | .pivot .. => true
  | _ => false

/-- The number of pivots that a phase made. -/
def Climb.pivots {K : Type} (c : Climb K) : ℕ :=
  c.steps.countP Step.isPivot

theorem Climb.pivots_cons {K : Type} {step : Step} (hstep : step.isPivot = true) (rest : Climb K) :
    Climb.pivots { rest with steps := step :: rest.steps } = rest.pivots + 1 :=
  List.countP_cons_of_pos hstep

section Stages

variable {K : Type} [Scalar K] {tolerance : K} {eligible : ℕ}

namespace Stage

/-- The stage after the next pivot, if a column enters and a row leaves for it. -/
def pivot? (tolerance : K) (eligible : ℕ) (g : Stage K) : Option (Stage K) :=
  match g.tableau.entering? tolerance eligible g.lowestIndex with
  | none => none
  | some col => (g.tableau.leaving? tolerance col).map fun row =>
      ⟨isDegenerate tolerance g.tableau row, g.tableau.pivot row col⟩

/-- The stage after so many pivots. Where no pivot is possible the sequence stays. -/
def after (tolerance : K) (eligible : ℕ) (g : Stage K) (k : ℕ) : Stage K :=
  (fun g => (g.pivot? tolerance eligible).getD g)^[k] g

/-- Whether the sequence goes on for so many pivots. -/
def Lasts (tolerance : K) (eligible : ℕ) (g : Stage K) (n : ℕ) : Prop :=
  ∀ k < n, ((g.after tolerance eligible k).pivot? tolerance eligible).isSome = true

@[simp]
theorem after_zero (g : Stage K) : g.after tolerance eligible 0 = g :=
  rfl

/-- The first pivot and then the others. -/
theorem after_succ (g : Stage K) (k : ℕ) : g.after tolerance eligible (k + 1) =
    ((g.pivot? tolerance eligible).getD g).after tolerance eligible k :=
  Function.iterate_succ_apply _ k g

/-- All but the last pivot and then that one. -/
theorem after_succ_eq (g : Stage K) (k : ℕ) : g.after tolerance eligible (k + 1) =
    ((g.after tolerance eligible k).pivot? tolerance eligible).getD (g.after tolerance eligible k) :=
  Function.iterate_succ_apply' _ k g

/-- So many pivots and then so many more. -/
theorem after_add (g : Stage K) (i k : ℕ) : g.after tolerance eligible (i + k) =
    (g.after tolerance eligible i).after tolerance eligible k := by
  rw [Nat.add_comm]
  exact Function.iterate_add_apply _ k i g

theorem pivot?_eq_some {g : Stage K} {col row : ℕ}
    (hcol : g.tableau.entering? tolerance eligible g.lowestIndex = some col)
    (hrow : g.tableau.leaving? tolerance col = some row) :
    g.pivot? tolerance eligible =
      some ⟨isDegenerate tolerance g.tableau row, g.tableau.pivot row col⟩ := by
  simp only [pivot?, hcol, hrow, Option.map_some]

theorem pivot?_eq_none_of_entering? {g : Stage K}
    (hcol : g.tableau.entering? tolerance eligible g.lowestIndex = none) :
    g.pivot? tolerance eligible = none := by
  simp only [pivot?, hcol]

end Stage

/-! ## A phase in the sequence -/

/-- How a phase ends at the stage `last`, where so many pivots were allowed and `made` had been made. -/
def Climb.EndsAt (tolerance : K) (eligible : ℕ) (expired : ℕ → Bool) (left made : ℕ) (last : Stage K)
    (c : Climb K) : Prop :=
  match c.ending with
  | .optimal => last.tableau.entering? tolerance eligible last.lowestIndex = none
  | .unbounded => ∃ col, last.tableau.entering? tolerance eligible last.lowestIndex = some col ∧
      last.tableau.leaving? tolerance col = none
  | .timeLimit => expired (made + c.pivots) = true
  | .pivotLimit => c.pivots = left

/-- The phase has made the first pivots of the sequence from `g` and stops at the stage after them. -/
structure Climb.Course (tolerance : K) (eligible : ℕ) (expired : ℕ → Bool) (left made : ℕ)
    (g : Stage K) (c : Climb K) : Prop where
  tableau : c.tableau = (g.after tolerance eligible c.pivots).tableau
  lasts : g.Lasts tolerance eligible c.pivots
  ending : c.EndsAt tolerance eligible expired left made (g.after tolerance eligible c.pivots)

/-- A phase that stops before its first pivot. -/
private theorem course_of_stop {expired : ℕ → Bool} {left made : ℕ} {g : Stage K} {c : Climb K}
    (htableau : c.tableau = g.tableau) (hpivots : c.pivots = 0)
    (hending : c.EndsAt tolerance eligible expired left made g) :
    c.Course tolerance eligible expired left made g where
  tableau := by rw [hpivots, htableau, Stage.after_zero]
  lasts k hk := absurd (hpivots ▸ hk) (Nat.not_lt_zero k)
  ending := by rwa [hpivots, Stage.after_zero]

/-- A pivot in front of a phase that follows the sequence. -/
private theorem Climb.Course.cons {expired : ℕ → Bool} {left made : ℕ} {g g' : Stage K} {rest : Climb K}
    (h : rest.Course tolerance eligible expired left (made + 1) g')
    (hnext : g.pivot? tolerance eligible = some g') {step : Step} (hstep : step.isPivot = true) :
    Climb.Course tolerance eligible expired (left + 1) made g
      { rest with steps := step :: rest.steps } := by
  have hpivots := Climb.pivots_cons hstep rest
  have hafter (k : ℕ) : g.after tolerance eligible (k + 1) = g'.after tolerance eligible k := by
    rw [Stage.after_succ, hnext, Option.getD_some]
  refine ⟨?_, ?_, ?_⟩
  · rw [hpivots, hafter]
    exact h.tableau
  · rw [hpivots]
    intro k hk
    cases k with
    | zero => rw [Stage.after_zero, hnext, Option.isSome_some]
    | succ k =>
      rw [hafter]
      exact h.lasts k (Nat.lt_of_succ_lt_succ hk)
  · have hend := h.ending
    unfold Climb.EndsAt at hend ⊢
    rw [hpivots, hafter]
    revert hend
    cases rest.ending with
    | optimal => exact id
    | unbounded => exact id
    | timeLimit =>
      intro hexpired
      rwa [Nat.add_assoc, Nat.add_comm 1] at hexpired
    | pivotLimit => exact congrArg Nat.succ

/-- Every phase follows the sequence of its first stage. -/
theorem climb_course (tolerance : K) (eligible : ℕ) (expired : ℕ → Bool) (left made : ℕ)
    (g : Stage K) : (climb tolerance eligible expired left made g.lowestIndex g.tableau).Course
      tolerance eligible expired left made g := by
  induction left generalizing made g with
  | zero =>
    cases hcol : g.tableau.entering? tolerance eligible g.lowestIndex with
    | none => rw [climb_converged hcol]; exact course_of_stop rfl rfl hcol
    | some col => rw [climb_pivotLimit hcol]; exact course_of_stop rfl rfl rfl
  | succ left ih =>
    cases hcol : g.tableau.entering? tolerance eligible g.lowestIndex with
    | none => rw [climb_converged hcol]; exact course_of_stop rfl rfl hcol
    | some col =>
      cases hexp : expired made with
      | true => rw [climb_timeLimit hcol hexp]; exact course_of_stop rfl rfl hexp
      | false =>
        cases hrow : g.tableau.leaving? tolerance col with
        | none =>
          rw [climb_unbounded hcol hexp hrow]
          exact course_of_stop rfl rfl ⟨col, hcol, hrow⟩
        | some row =>
          rw [climb_pivot hcol hexp hrow]
          exact (ih (made + 1) ⟨_, _⟩).cons (Stage.pivot?_eq_some hcol hrow) rfl

theorem Climb.Course.pivots_eq {expired : ℕ → Bool} {left made : ℕ} {g : Stage K} {c : Climb K}
    (h : c.Course tolerance eligible expired left made g) (hc : c.ending = .pivotLimit) :
    c.pivots = left := by
  have hend := h.ending
  unfold Climb.EndsAt at hend
  rwa [hc] at hend

theorem Climb.Course.expired_pivots {expired : ℕ → Bool} {left made : ℕ} {g : Stage K} {c : Climb K}
    (h : c.Course tolerance eligible expired left made g) (hc : c.ending = .timeLimit) :
    expired (made + c.pivots) = true := by
  have hend := h.ending
  unfold Climb.EndsAt at hend
  rwa [hc] at hend

/-- Phases that both find no entering column have made the same pivots. -/
theorem Climb.Course.tableau_eq {expired expired' : ℕ → Bool} {left left' made made' : ℕ} {g : Stage K}
    {c c' : Climb K} (h : c.Course tolerance eligible expired left made g)
    (h' : c'.Course tolerance eligible expired' left' made' g) (hc : c.ending = .optimal)
    (hc' : c'.ending = .optimal) : c.tableau = c'.tableau := by
  have hend := h.ending
  have hend' := h'.ending
  unfold Climb.EndsAt at hend hend'
  rw [hc] at hend
  rw [hc'] at hend'
  -- neither of them can go on where the other has stopped
  have hpivots : c.pivots = c'.pivots := by
    rcases lt_trichotomy c.pivots c'.pivots with hlt | heq | hgt
    · have hgo := h'.lasts c.pivots hlt
      rw [Stage.pivot?_eq_none_of_entering? hend] at hgo
      exact absurd hgo Bool.false_ne_true
    · exact heq
    · have hgo := h.lasts c'.pivots hgt
      rw [Stage.pivot?_eq_none_of_entering? hend'] at hgo
      exact absurd hgo Bool.false_ne_true
  rw [h.tableau, h'.tableau, hpivots]

/-! ## The two phases of a run -/

/-- Where the first phase starts. -/
def firstStage (p : DenseProgram K) : Stage K :=
  ⟨false, { Tableau.ofProgram p with objective := (Tableau.ofProgram p).artificialObjective }⟩

/-- Where the second phase starts. -/
def secondStage (s : Settings K) (deadline : Deadline) (p : DenseProgram K) : Stage K :=
  ⟨false, ready s deadline p⟩

theorem course_ascent (s : Settings K) (deadline : Deadline) (p : DenseProgram K) :
    (ascent s deadline p).Course s.tolerance (Tableau.ofProgram p).numColumns (deadline .first)
      s.maxPivots 0 (firstStage p) :=
  climb_course _ _ _ _ _ (firstStage p)

theorem course_summit (s : Settings K) (deadline : Deadline) (p : DenseProgram K) :
    (summit s deadline p).Course s.tolerance (ready s deadline p).firstArtificial (deadline .second)
      s.maxPivots 0 (secondStage s deadline p) :=
  climb_course _ _ _ _ _ (secondStage s deadline p)

end Stages

end LinearProgram.Simplex
