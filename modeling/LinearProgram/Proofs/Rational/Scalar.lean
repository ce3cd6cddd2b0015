import Mathlib
import LinearProgram.Model.Basic

/-!
# Rational arithmetic as an instance of the scalar operations

Over `ℚ` every comparison of `Scalar` decides the order of the field, and the magnitude is the absolute
value. The lemmas here turn the `Bool`-valued tests of the program into propositions; no other module
looks into the instance.
-/

namespace LinearProgram

namespace Scalar

@[simp]
theorem lt_rat (a b : ℚ) : Scalar.lt a b = true ↔ a < b := by
  simp [Scalar.lt]

@[simp]
theorem le_rat (a b : ℚ) : Scalar.le a b = true ↔ a ≤ b := by
  simp [Scalar.le]

@[simp]
theorem eq_rat (a b : ℚ) : Scalar.eq a b = true ↔ a = b := by
  simp [Scalar.eq]

@[simp]
theorem lt_rat_eq_false (a b : ℚ) : Scalar.lt a b = false ↔ b ≤ a := by
  rw [← not_lt, ← lt_rat, Bool.not_eq_true]

@[simp]
theorem abs_rat (a : ℚ) : Scalar.abs a = |a| := by
  show (if a < 0 then -a else a) = |a|
  split
  · next h => rw [abs_of_neg h]
  · next h => rw [abs_of_nonneg (not_lt.mp h)]

end Scalar

/-! ## Numbers that a tolerance tells apart -/

/-- Equal, or further apart than the tolerance: such numbers compare the same with the tolerance as
without it. -/
def Apart (tolerance a b : ℚ) : Prop :=
  a = b ∨ tolerance < |a - b|

instance {tolerance a b : ℚ} : Decidable (Apart tolerance a b) :=
  inferInstanceAs (Decidable (_ ∨ _))

namespace Apart

variable {tolerance a b : ℚ} (h : Apart tolerance a b) (h0 : 0 ≤ tolerance)
include h h0

theorem lt_sub_iff : a < b - tolerance ↔ a < b := by
  refine ⟨fun hlt => hlt.trans_le (sub_le_self b h0), fun hlt => ?_⟩
  rcases h with rfl | h
  · exact absurd hlt (lt_irrefl a)
  · rw [abs_of_neg (sub_neg.mpr hlt)] at h
    linarith

theorem le_add_iff : a ≤ b + tolerance ↔ a ≤ b := by
  refine ⟨fun hle => ?_, fun hle => hle.trans (le_add_of_nonneg_right h0)⟩
  rcases h with rfl | h
  · exact le_rfl
  · by_contra hlt
    rw [abs_of_pos (sub_pos.mpr (not_le.mp hlt))] at h
    linarith

end Apart

section ApartFromZero

variable {tolerance a : ℚ} (h : Apart tolerance a 0) (h0 : 0 ≤ tolerance)
include h h0

theorem Apart.lt_iff : tolerance < a ↔ 0 < a := by
  rw [← not_le, ← not_le, ← zero_add tolerance, h.le_add_iff h0]

theorem Apart.abs_le_iff : |a| ≤ tolerance ↔ |a| ≤ 0 := by
  refine ⟨fun hle => ?_, fun hle => hle.trans h0⟩
  rcases h with rfl | h
  · exact abs_zero.le
  · rw [sub_zero] at h
    exact absurd hle (not_le.mpr h)

end ApartFromZero

/-! ## Relations with a margin -/

namespace Relation

@[simp]
theorem holds_le (lhs bound margin : ℚ) :
    Relation.le.holds lhs bound margin = true ↔ lhs ≤ bound + margin :=
  Scalar.le_rat _ _

@[simp]
theorem holds_ge (lhs bound margin : ℚ) :
    Relation.ge.holds lhs bound margin = true ↔ bound - margin ≤ lhs :=
  Scalar.le_rat _ _

@[simp]
theorem holds_eq (lhs bound margin : ℚ) :
    Relation.eq.holds lhs bound margin = true ↔ |lhs - bound| ≤ margin := by
  rw [← Scalar.abs_rat]
  exact Scalar.le_rat _ _

/-- Negating both sides of a relation and turning it around changes nothing. -/
theorem holds_flip_neg (r : Relation) (lhs bound margin : ℚ) :
    r.flip.holds (-lhs) (-bound) margin = r.holds lhs bound margin := by
  rw [Bool.eq_iff_iff]
  cases r with
  | le => simp only [flip, holds_ge, holds_le]; constructor <;> intro h <;> linarith
  | ge => simp only [flip, holds_ge, holds_le]; constructor <;> intro h <;> linarith
  | eq =>
    simp only [flip, holds_eq]
    rw [show -lhs - -bound = -(lhs - bound) by ring, abs_neg]

end Relation

end LinearProgram
