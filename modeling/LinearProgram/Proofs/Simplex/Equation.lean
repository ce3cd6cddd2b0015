import Mathlib
import LinearProgram.Simplex.Tableau
import LinearProgram.Proofs.Rational.Dot

/-!
# Row operations on equations

The gap of an equation at an assignment is its left-hand side minus its right-hand side, so that the
equation holds where the gap is zero. Every row operation acts on gaps as it acts on equations:
division divides them, subtraction of a multiple subtracts the multiple. That an operation keeps the
solutions of a system is then arithmetic on gaps.
-/

namespace LinearProgram.Equation

/-- The left-hand side when column `j` has the value `x j`. -/
def lhs (e : Equation ℚ) (x : ℕ → ℚ) : ℚ :=
  dot e.coefficients x

/-- How far the left-hand side is above the right-hand side. -/
def gap (e : Equation ℚ) (x : ℕ → ℚ) : ℚ :=
  e.lhs x - e.rhs

/-- The zero of the program is the rational zero. -/
theorem entry_eq_getD (e : Equation ℚ) (j : ℕ) : e.entry j = e.coefficients.getD j 0 :=
  rfl

/-- There are no coefficients beyond the last column. -/
theorem lt_length_of_entry_ne_zero {e : Equation ℚ} {j : ℕ} (h : e.entry j ≠ 0) :
    j < e.coefficients.length := by
  by_contra hj
  exact h (List.getD_eq_default _ _ (not_lt.mp hj))

/-! ## In the assignment -/

/-- A change of the assignment changes the gap by the left-hand side at the change. -/
theorem gap_add (e : Equation ℚ) (x d : ℕ → ℚ) :
    e.gap (fun j => x j + d j) = e.gap x + e.lhs d := by
  rw [gap, gap, lhs, lhs, lhs, dot_add]
  ring

theorem lhs_add (e : Equation ℚ) (x y : ℕ → ℚ) :
    e.lhs (fun j => x j + y j) = e.lhs x + e.lhs y :=
  dot_add _ _ _

theorem lhs_single (e : Equation ℚ) (k : ℕ) (v : ℚ) :
    e.lhs (fun j => if j = k then v else 0) = e.entry k * v :=
  dot_single _ _ _

/-! ## Division -/

@[simp]
theorem entry_divide (e : Equation ℚ) (p : ℚ) (j : ℕ) : (e.divide p).entry j = e.entry j / p :=
  getD_map_of_zero (f := fun c => c / p) (zero_div p) _ j

@[simp]
theorem rhs_divide (e : Equation ℚ) (p : ℚ) : (e.divide p).rhs = e.rhs / p :=
  rfl

theorem gap_divide (e : Equation ℚ) (p : ℚ) (x : ℕ → ℚ) : (e.divide p).gap x = e.gap x / p := by
  have h : (e.divide p).lhs x = e.lhs x / p := dot_map_div _ _ _
  rw [gap, gap, h, rhs_divide, sub_div]

/-! ## Addition and subtraction -/

section SameWidth

variable {e f : Equation ℚ} (hw : f.coefficients.length = e.coefficients.length)
include hw

theorem entry_add (j : ℕ) : (e.add f).entry j = e.entry j + f.entry j :=
  getD_zipWith_of_zero (f := fun a b => a + b) (add_zero 0) hw j

theorem gap_add_equation (x : ℕ → ℚ) : (e.add f).gap x = e.gap x + f.gap x := by
  have h : (e.add f).lhs x = e.lhs x + f.lhs x := dot_zipWith_add hw x
  have hr : (e.add f).rhs = e.rhs + f.rhs := rfl
  rw [gap, gap, gap, h, hr]
  ring

theorem length_add : (e.add f).coefficients.length = e.coefficients.length := by
  simp [add, hw]

theorem entry_subtract (c : ℚ) (j : ℕ) : (e.subtract c f).entry j = e.entry j - c * f.entry j :=
  getD_zipWith_of_zero (f := fun a b => a - c * b) (by ring) hw j

theorem gap_subtract (c : ℚ) (x : ℕ → ℚ) : (e.subtract c f).gap x = e.gap x - c * f.gap x := by
  have h : (e.subtract c f).lhs x = e.lhs x - c * f.lhs x := dot_zipWith_sub_mul hw c x
  have hr : (e.subtract c f).rhs = e.rhs - c * f.rhs := rfl
  rw [gap, gap, gap, h, hr]
  ring

/-! ## Elimination

Whether the coefficient is zero or not, elimination subtracts that multiple of the other equation. -/

theorem entry_eliminate (k j : ℕ) :
    (e.eliminate k f).entry j = e.entry j - e.entry k * f.entry j := by
  unfold eliminate
  split
  · next h =>
    have h0 : e.entry k = 0 := (Scalar.eq_rat _ _).mp h
    rw [h0, zero_mul, sub_zero]
  · exact entry_subtract hw _ j

omit hw in
theorem rhs_eliminate (k : ℕ) : (e.eliminate k f).rhs = e.rhs - e.entry k * f.rhs := by
  unfold eliminate
  split
  · next h =>
    have h0 : e.entry k = 0 := (Scalar.eq_rat _ _).mp h
    rw [h0, zero_mul, sub_zero]
  · rfl

theorem gap_eliminate (k : ℕ) (x : ℕ → ℚ) :
    (e.eliminate k f).gap x = e.gap x - e.entry k * f.gap x := by
  unfold eliminate
  split
  · next h =>
    have h0 : e.entry k = 0 := (Scalar.eq_rat _ _).mp h
    rw [h0, zero_mul, sub_zero]
  · exact gap_subtract hw _ x

end SameWidth

end LinearProgram.Equation
