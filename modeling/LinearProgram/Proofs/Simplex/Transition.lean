import Mathlib
import LinearProgram.Proofs.Simplex.Exact
import LinearProgram.Proofs.Simplex.Progress

/-!
# What the first phase hands over

The first phase ends with artificial variables that may still be in the basis, at zero. Without a
tolerance everything that happens then is exact: the program's objective is priced out, and each row
with an artificial basic variable is pivoted, on a coefficient of either sign, or dropped. `HandedOver`
says what the second phase gets, and `transition_exact` that it gets this from every model whose first
phase succeeds.

A pivot on a coefficient of either sign would not keep right-hand sides from becoming negative. Here it
does, because the rows in question have right-hand side zero, so that the pivot changes no right-hand
side at all (`Carried.pivot`).
-/

namespace LinearProgram.Simplex

open Tableau

/-! ## Right-hand sides along the walk -/

/-- What a step of the walk takes away from a list by rows: a row that is dropped takes its place along. -/
def Step.erase {α : Type} (values : List α) : Step → List α
  | .dropRedundant row => values.eraseIdx row
  | .pivot .. | .converged _ | .deadline _ | .expel .. => values

/-- Where the walk has come to from `t`: the artificial variables vanish, and right-hand sides are dropped
with their rows and not changed otherwise. -/
structure Carried (t t' : Tableau ℚ) (steps : List Step) : Prop where
  vanishing : t'.Vanishing
  rightHandSides : t'.rightHandSides = steps.foldl Step.erase t.rightHandSides
  rhs_objective : t'.objective.rhs = t.objective.rhs

namespace Carried

variable {t t' : Tableau ℚ} {steps : List Step} (h : Carried t t' steps) {row : ℕ} {r : BasicRow ℚ}
include h

theorem pivot (hr : t'.rows[row]? = some r) (ha : t'.isArtificial r = true) (col : ℕ) :
    Carried t (t'.pivot row col) (steps ++ [.expel row col]) := by
  have h0 := h.vanishing.rhs_eq_zero hr ha
  refine ⟨h.vanishing.pivot hr ha col, ?_, ?_⟩
  · rw [rightHandSides_pivot hr h0, h.rightHandSides, List.foldl_append]
    rfl
  · rw [rhs_objective_pivot hr, ratio, h0, zero_div, mul_zero, sub_zero, h.rhs_objective]

theorem drop (row : ℕ) : Carried t (t'.drop row) (steps ++ [.dropRedundant row]) where
  vanishing := h.vanishing.drop
  rightHandSides := by
    rw [rightHandSides_drop, h.rightHandSides, List.foldl_append]
    rfl
  rhs_objective := h.rhs_objective

end Carried

/-- No step of the walk changes a right-hand side. -/
theorem carried_expelArtificials {t : Tableau ℚ} (hv : t.Vanishing) (count : ℕ) :
    Carried t (expelArtificials 0 count t).1 (expelArtificials 0 count t).2 :=
  expelArtificials_induction (P := fun _ t' _ steps => Carried t t' steps)
    (fun _ _ _ _ h _ => h)
    (fun _ _ _ _ _ col h hr ha _ => h.pivot hr ha col)
    (fun row _ _ _ _ h _ _ _ => h.drop row)
    count t [] [] ⟨hv, rfl, rfl⟩

/-! ## The two phases and what is between them -/

section Transition

variable {K : Type} [Scalar K] {s : Settings K} {deadline : Deadline} {p : DenseProgram K}

/-- What the first phase of a run ends with, when it takes the program's objective back. -/
def repriced (s : Settings K) (deadline : Deadline) (p : DenseProgram K) : Tableau K :=
  { (ascent s deadline p).tableau with
    objective := (ascent s deadline p).tableau.price s.tolerance (ofProgram p).objective }

/-- The walk from the first phase of a run to the second. -/
def transition (s : Settings K) (deadline : Deadline) (p : DenseProgram K) : Tableau K × List Step :=
  handOver s (ofProgram p).objective (ascent s deadline p).tableau

/-- A run whose first phase succeeds goes on from what that hands over. -/
theorem run_eq_of_ascent (h0 : (ofProgram p).numArtificial ≠ 0)
    (hending : (ascent s deadline p).ending = .optimal)
    (hvanish : (ascent s deadline p).tableau.artificialsVanish s.tolerance = true) :
    run s deadline p = ⟨(secondPhase s deadline (transition s deadline p).1).verdict,
      (ascent s deadline p).steps ++ (transition s deadline p).2 ++
        (secondPhase s deadline (transition s deadline p).1).steps⟩ := by
  unfold ascent at hending hvanish
  simp only [run_eq, if_neg h0, hending, hvanish, if_true]
  rfl

end Transition

/-- What the second phase gets from the start `t₀`: the tableau `t` that the walk from `t₁` leads to in
`steps`. It is ready; its rows have the right-hand sides that they have in `t₁`; the rows that are dropped
say nothing where the artificial variables are zero; and there its costs give the objective of `t₀` up to
a constant. -/
structure HandedOver (t₀ t₁ : Tableau ℚ) (steps : List Step) (t : Tableau ℚ) : Prop
    extends Ready t₀ t where
  rightHandSides : t.rightHandSides = steps.foldl Step.erase t₁.rightHandSides
  rhs_objective : t.objective.rhs = t₁.objective.rhs
  redundant : ∀ d ∈ dropped 0 t₁.rows.length t₁,
    d.equation.rhs = 0 ∧ ∀ j < t₀.firstArtificial, d.equation.entry j = 0
  lhs_objective : ∀ x, t₀.Unaided x → t.Solves x →
    t₀.objective.lhs x = t.objective.lhs x + -t.objective.rhs

section Exact

variable {maxPivots : ℕ} {deadline : Deadline}

/-- The walk starts from a canonical tableau where the artificial variables vanish. -/
theorem primal_repriced {p : DenseProgram ℚ} (hp : p.Rectangular) (maxPivots : ℕ) (deadline : Deadline) :
    (repriced (.exact maxPivots) deadline p).Primal ∧
      (repriced (.exact maxPivots) deadline p).firstArtificial = (ofProgram p).firstArtificial := by
  obtain ⟨hprimal, heq⟩ := primal_ascent hp maxPivots deadline
  have hw := (canonical_ofProgram hp).width_objective.trans heq.numColumns.symm
  exact ⟨hprimal.toCanonical.primal_price hprimal.feasible hw, heq.firstArtificial⟩

/-- Where the first phase drives the artificial variables to zero, the second gets the program. -/
theorem handedOver_of_vanish {p : DenseProgram ℚ} (hp : p.Rectangular)
    (hvanish : (ascent (.exact maxPivots) deadline p).tableau.artificialsVanish 0 = true) :
    HandedOver (ofProgram p) (repriced (.exact maxPivots) deadline p)
      (transition (.exact maxPivots) deadline p).2 (transition (.exact maxPivots) deadline p).1 := by
  have hready := ready_handOver hp hvanish
  obtain ⟨hprimal, hfirst⟩ := primal_repriced hp maxPivots deadline
  have hv : (repriced (.exact maxPivots) deadline p).Vanishing := artificialsVanish_iff.mp hvanish
  have hcarried := carried_expelArtificials hv (repriced (.exact maxPivots) deadline p).rows.length
  refine
    { hready with
      rightHandSides := hcarried.rightHandSides
      rhs_objective := hcarried.rhs_objective
      redundant := fun d hd => ?_
      lhs_objective := fun x hx hsolves => ?_ }
  · rw [← hfirst]
    exact hprimal.dropped_eq_zero hv hd
  · have hgap := hready.gap_objective x hx ((hready.solves_iff x hx).mp hsolves)
    have h0 : (ofProgram p).objective.rhs = 0 := rfl
    rw [Equation.gap, Equation.gap, h0, sub_zero] at hgap
    rw [← sub_eq_add_neg]
    exact hgap.symm

/-- **The hand-over is exact.** Where the first phase of a run without a tolerance succeeds, the run goes
on from a tableau without artificial basic variables, whose right-hand sides are those that the first
phase ended with, which has the solutions without artificial variables that the starting tableau has, and
whose costs give the objective of the model on them, negated for a minimization, up to one constant. -/
theorem transition_exact {m : Model ℚ} {t : Tableau ℚ} {steps : List Step}
    (h0 : (ofProgram m.dense).numArtificial ≠ 0)
    (hending : (ascent (.exact maxPivots) deadline m.dense).ending = .optimal)
    (hvanish : (ascent (.exact maxPivots) deadline m.dense).tableau.artificialsVanish 0 = true)
    (ht : transition (.exact maxPivots) deadline m.dense = (t, steps)) :
    run (.exact maxPivots) deadline m.dense =
        ⟨(secondPhase (.exact maxPivots) deadline t).verdict,
          (ascent (.exact maxPivots) deadline m.dense).steps ++ steps ++
            (secondPhase (.exact maxPivots) deadline t).steps⟩ ∧
      HandedOver (ofProgram m.dense) (repriced (.exact maxPivots) deadline m.dense) steps t ∧
      ∀ x, (ofProgram m.dense).objective.lhs x =
        m.objective.sense.score (m.value (m.assignment x)) := by
  have hrun := run_eq_of_ascent h0 hending hvanish
  have hover := handedOver_of_vanish m.rectangular_dense hvanish
  rw [ht] at hrun hover
  refine ⟨hrun, hover, fun x => ?_⟩
  rw [← m.dot_objective]
  exact (sub_zero _).symm.trans (gap_objective_ofProgram x)

end Exact

/-- Maximize `y - z` where `x ≤ 0`, `x - y = 0`, `2x - 2y = 0` and `z ≥ 4`. -/
def wedged : Model ℚ where
  vars := [⟨"x", .nonNegativeReals⟩, ⟨"y", .nonNegativeReals⟩, ⟨"z", .nonNegativeReals⟩]
  constraints :=
    [⟨"edge", ⟨[⟨"x", 1⟩]⟩, .le, 0⟩,
      ⟨"even", ⟨[⟨"x", 1⟩, ⟨"y", -1⟩]⟩, .eq, 0⟩,
      ⟨"twice", ⟨[⟨"x", 2⟩, ⟨"y", -2⟩]⟩, .eq, 0⟩,
      ⟨"floor", ⟨[⟨"z", 1⟩]⟩, .ge, 4⟩]
  objective := ⟨⟨[⟨"y", 1⟩, ⟨"z", -1⟩]⟩, .maximize⟩

/-- One artificial variable leaves the basis by a pivot on a negative coefficient, the row of another is
dropped, and the third has left the basis in the first phase, which makes the objective `-4`. -/
theorem transition_exact_wedged :
    (ofProgram wedged.dense).numArtificial = 3 ∧
      (ascent (.exact 10) .never wedged.dense).ending = .optimal ∧
      (ascent (.exact 10) .never wedged.dense).tableau.artificialsVanish 0 = true ∧
      (transition (.exact 10) .never wedged.dense).2 = [.expel 2 1, .dropRedundant 1] ∧
      (transition (.exact 10) .never wedged.dense).1.objective.rhs = 4 ∧
      HandedOver (ofProgram wedged.dense) (repriced (.exact 10) .never wedged.dense)
        [.expel 2 1, .dropRedundant 1] (transition (.exact 10) .never wedged.dense).1 :=
  have h0 : (ofProgram wedged.dense).numArtificial = 3 := by decide +kernel
  have hending : (ascent (.exact 10) .never wedged.dense).ending = .optimal := by decide +kernel
  have hvanish : (ascent (.exact 10) .never wedged.dense).tableau.artificialsVanish 0 = true := by
    decide +kernel
  have hsteps : (transition (.exact 10) .never wedged.dense).2 = [.expel 2 1, .dropRedundant 1] := by
    decide +kernel
  have hexact := transition_exact (h0.trans_ne (Nat.succ_ne_zero 2)) hending hvanish (by rw [← hsteps])
  ⟨h0, hending, hvanish, hsteps, by decide +kernel, hexact.2.1⟩

end LinearProgram.Simplex
