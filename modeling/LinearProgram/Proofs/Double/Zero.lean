import Mathlib
import LinearProgram.Model.Expr
import LinearProgram.Proofs.Double.Sign

/-!
# The two zeros

To a comparison the zeros of either sign are one number, although they are two doubles. Doubles are the
same number when they are equal or both zeros. The sign of a zero makes no difference to a sum or a product
but for the sign of a zero, so that sums and products of the same numbers are the same numbers, and an
expression has the same value at the same numbers (`same_evaluate`).
-/

namespace LinearProgram.Double

open Float.Model (Format UnpackedFloat)
open Float.Model.UnpackedFloat (Sign)

/-- Equal, or both zeros. What is not a number is the same as itself. -/
def Same (x y : Float) : Prop :=
  x = y ∨ (x == 0) = true ∧ (y == 0) = true

namespace Same

@[refl]
theorem refl (x : Float) : Same x x :=
  .inl rfl

theorem trans {x y z : Float} (hxy : Same x y) (hyz : Same y z) : Same x z := by
  rcases hxy with rfl | ⟨hx, hy⟩
  · exact hyz
  · rcases hyz with rfl | ⟨-, hz⟩
    · exact .inr ⟨hx, hy⟩
    · exact .inr ⟨hx, hz⟩

end Same

/-! ## Zeros -/

theorem beq_zero_iff {x : Float} : (x == 0) = true ↔ ∃ s, x.toModel.unpack = .zero s := by
  have hcompare : (x == 0) = (x.toModel.unpack.compare (.zero .positive) == some .eq) := rfl
  rw [hcompare]
  cases x.toModel.unpack with
  | infinity s => cases s <;> simp [UnpackedFloat.compare]
  | notANumber => simp [UnpackedFloat.compare]
  | zero s => simp [UnpackedFloat.compare]
  | finite s m e h => cases s <;> simp [UnpackedFloat.compare]

theorem beq_zero_encode (s : Sign) : (encode (.zero s) == 0) = true := by
  cases s <;> rfl

theorem same_encode_zero (s s' : Sign) : Same (encode (.zero s)) (encode (.zero s')) :=
  .inr ⟨beq_zero_encode s, beq_zero_encode s'⟩

/-! ## Sums and products -/

theorem add_eq_encode (x y : Float) :
    x + y = encode (.add Format.binary64 x.toModel.unpack y.toModel.unpack) :=
  rfl

theorem mul_eq_encode (x y : Float) :
    x * y = encode (.mul Format.binary64 x.toModel.unpack y.toModel.unpack) :=
  rfl

/-- It makes no difference on which side a zero is added. -/
theorem zero_add_comm {z : Float} (hz : (z == 0) = true) (x : Float) : z + x = x + z := by
  obtain ⟨s, hs⟩ := beq_zero_iff.mp hz
  rw [add_eq_encode, add_eq_encode, hs]
  cases x.toModel.unpack with
  | zero t => cases s <;> cases t <;> rfl
  | infinity t => rfl
  | notANumber => rfl
  | finite t m e h => rfl

section Zeros

variable {z z' : Float} (hz : (z == 0) = true) (hz' : (z' == 0) = true)
include hz hz'

/-- Zeros of either sign are neutral in a sum, but for the sign of a sum of zeros. -/
theorem same_add_zero (x : Float) : Same (x + z) (x + z') := by
  obtain ⟨s, hs⟩ := beq_zero_iff.mp hz
  obtain ⟨s', hs'⟩ := beq_zero_iff.mp hz'
  rw [add_eq_encode, add_eq_encode, hs, hs']
  cases x.toModel.unpack with
  | zero t => cases t <;> cases s <;> cases s' <;> exact same_encode_zero _ _
  | infinity t => rfl
  | notANumber => rfl
  | finite t m e h => rfl

/-- A product with a zero is a zero, or is no number whatever the sign of the zero. -/
theorem same_mul_zero (x : Float) : Same (x * z) (x * z') := by
  obtain ⟨s, hs⟩ := beq_zero_iff.mp hz
  obtain ⟨s', hs'⟩ := beq_zero_iff.mp hz'
  rw [mul_eq_encode, mul_eq_encode, hs, hs']
  cases x.toModel.unpack with
  | zero t => exact same_encode_zero _ _
  | finite t m e h => exact same_encode_zero _ _
  | infinity t => rfl
  | notANumber => rfl

end Zeros

theorem Same.mul_left {y y' : Float} (h : Same y y') (x : Float) : Same (x * y) (x * y') := by
  rcases h with rfl | ⟨hy, hy'⟩
  · rfl
  · exact same_mul_zero hy hy' x

theorem Same.add {x x' y y' : Float} (hx : Same x x') (hy : Same y y') : Same (x + y) (x' + y') := by
  have hright : Same (x + y) (x + y') := by
    rcases hy with rfl | ⟨hy, hy'⟩
    · rfl
    · exact same_add_zero hy hy' x
  have hleft : Same (x + y') (x' + y') := by
    rcases hx with rfl | ⟨hx, hx'⟩
    · rfl
    · rw [zero_add_comm hx, zero_add_comm hx']
      exact same_add_zero hx hx' y'
  exact hright.trans hleft

/-- At the same numbers an expression has the same value. -/
theorem same_evaluate {e : LinearExpr Float} {y y' : String → Float}
    (h : ∀ name, Same (y name) (y' name)) : Same (e.evaluate y) (e.evaluate y') := by
  have hfold (ts : List (Term Float)) {sum sum' : Float} (hsum : Same sum sum') :
      Same (ts.foldl (fun sum t => sum + t.coefficient * y t.name) sum)
        (ts.foldl (fun sum t => sum + t.coefficient * y' t.name) sum') := by
    induction ts generalizing sum sum' with
    | nil => exact hsum
    | cons t ts ih => exact ih (hsum.add ((h t.name).mul_left t.coefficient))
  exact hfold e.terms (.refl _)

end LinearProgram.Double
