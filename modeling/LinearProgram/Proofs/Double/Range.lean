import Mathlib
import LinearProgram.Proofs.Double.Zero

/-!
# The range of doubles

A result is finite as long as its exponent stays below the greatest one. The bounds here are coarse, a few
hundred binary places for one operation, which is enough for numbers of 64 bits that are divided by powers
of ten.
-/

namespace LinearProgram.Double

open Float.Model (Format UnpackedFloat totalExponent)
open Float.Model.UnpackedFloat (Sign Accuracy ExtendedMantissa)

/-- Finite, with an exponent of at most `bound`. -/
def Below (bound : ℤ) : UnpackedFloat → Prop
  | .zero _ => True
  | .finite _ _ e _ => e ≤ bound
  | .infinity _ => False
  | .notANumber => False

theorem Below.mono {bound bound' : ℤ} {u : UnpackedFloat} (h : Below bound u) (hle : bound ≤ bound') :
    Below bound' u := by
  cases u with
  | finite => exact le_trans h hle
  | _ => exact h

/-- A double that is finite, with an exponent of at most `bound`. -/
def Bounded (bound : ℤ) (x : Float) : Prop :=
  Below bound x.toModel.unpack

theorem Bounded.isFinite {bound : ℤ} {x : Float} (h : Bounded bound x) : x.isFinite = true := by
  show x.toModel.unpack.isFinite = true
  unfold Bounded at h
  cases hx : x.toModel.unpack <;> simp_all [Below, UnpackedFloat.isFinite]

/-! ## Rounding -/

theorem mantissa_shiftRight_le (em : ExtendedMantissa) (k : ℕ) : (em >>> k).mantissa ≤ em.mantissa := by
  induction k with
  | zero => exact le_rfl
  | succ k ih => exact (Nat.div_le_self _ 2).trans ih

theorem roundedMantissa_le (em : ExtendedMantissa) : em.roundedMantissa ≤ em.mantissa + 1 := by
  obtain ⟨m, r, s⟩ := em
  cases r <;> cases s <;> simp [ExtendedMantissa.roundedMantissa, ExtendedMantissa.accuracy,
    Accuracy.roundToNearestEven]
  omega

theorem mantissa_ofMantissaAndAccuracy (m : ℕ) (a : Accuracy) :
    (ExtendedMantissa.ofMantissaAndAccuracy m a).mantissa = m := by
  match a with
  | .exact => rfl
  | .inexact .lt => rfl
  | .inexact .eq => rfl
  | .inexact .gt => rfl

theorem log2_le_of_lt {m k : ℕ} (h : m < 2 ^ (k + 1)) : m.log2 ≤ k := by
  rcases Nat.eq_zero_or_pos m with rfl | hpos
  · simp
  · exact Nat.le_of_lt_succ ((Nat.log2_lt hpos.ne').mpr h)

theorem log2_le_of_le_succ {m n : ℕ} (h : n ≤ m + 1) : n.log2 ≤ m.log2 + 1 := by
  have hlt : m < 2 ^ (m.log2 + 1) := Nat.lt_log2_self
  refine log2_le_of_lt ?_
  rw [pow_succ]
  omega

/-- Shifting a mantissa to its target raises the exponent by no more than the size of the mantissa. -/
theorem shiftToTargetExponent_le (m : ℕ) (e : ℤ) (a : Accuracy) :
    (UnpackedFloat.shiftToTargetExponent Format.binary64 m e a).1.mantissa ≤ m ∧
      (UnpackedFloat.shiftToTargetExponent Format.binary64 m e a).2 =
        max e (max (m.log2 + 1 + e - 53) (-1074)) := by
  constructor
  · exact (mantissa_shiftRight_le _ _).trans (mantissa_ofMantissaAndAccuracy m a).le
  · show e + ((max (m.log2 + 1 + e - 53) (-1074) - e).toNat : ℤ) = _
    omega

/-- Rounding moves the exponent up by no more than twice the size of the mantissa. -/
theorem below_roundWithAccuracy (s : Sign) (m : ℕ) (e : ℤ) (a : Accuracy) :
    Below (max e (-1074) + 2 * m.log2) (.roundWithAccuracy Format.binary64 s m e a) := by
  unfold UnpackedFloat.roundWithAccuracy
  obtain ⟨hm₁, he₁⟩ := shiftToTargetExponent_le m e a
  generalize UnpackedFloat.shiftToTargetExponent Format.binary64 m e a = first at *
  obtain ⟨em₁, e₁⟩ := first
  have hlog : em₁.roundedMantissa.log2 ≤ m.log2 + 1 :=
    log2_le_of_le_succ ((roundedMantissa_le em₁).trans (Nat.succ_le_succ hm₁))
  obtain ⟨-, he₂⟩ := shiftToTargetExponent_le em₁.roundedMantissa e₁ .exact
  dsimp only
  generalize UnpackedFloat.shiftToTargetExponent Format.binary64 em₁.roundedMantissa e₁ .exact = second at *
  split
  · trivial
  · show second.2 ≤ _
    rw [he₂]
    simp only at he₁
    omega

/-! ## Packing -/

theorem below_decode {s : Sign} {e : BitVec 11} {m : BitVec 52} (he : e ≠ -1#11) :
    Below (max (e.toNat - 1075) (-1074)) (decode s e m) := by
  rw [decode_eq, if_neg he]
  split
  · next h0 =>
    subst h0
    split
    · trivial
    · show ((0#11).toNat : ℤ) - 1075 + 1 ≤ _
      simp
  · exact le_max_left _ _

/-- What is finite is put into the fields of a finite number, or of an infinity if its exponent is large. -/
theorem unpack_encode_finite {s : Sign} {m : ℕ} {e : ℤ} (hm : 0 < m) :
    (971 < e ∧ (encode (.finite s m e hm)).toModel.unpack = .infinity s) ∨
      ∃ exponent mantissa, exponent ≠ -1#11 ∧ (exponent.toNat : ℤ) ≤ max (e + 1075) 0 ∧
        (encode (.finite s m e hm)).toModel.unpack = decode s exponent mantissa := by
  have hunpack : (encode (.finite s m e hm)).toModel.unpack =
      .unpack Format.binary64 (UnpackedFloat.pack Format.binary64 (.finite s m e hm)) := rfl
  have hpack : UnpackedFloat.pack Format.binary64 (.finite s m e hm) =
      if 2 ^ 11 ≤ (e + 1023 + 52).toNat + 1 then UnpackedFloat.packedInfinity Format.binary64 s
      else if m.log2 + 1 = 53 then
        UnpackedFloat.packComponents Format.binary64 s (BitVec.ofNat 11 (e + 1023 + 52).toNat)
          (BitVec.ofNat 52 m)
      else UnpackedFloat.packComponents Format.binary64 s 0#11 (BitVec.ofNat 52 m) := rfl
  rw [hunpack, hpack]
  split_ifs with hlarge hnormal
  · refine .inl ⟨by omega, ?_⟩
    show decode s (-1#11) 0#52 = _
    rw [decode_eq, if_pos rfl, if_pos rfl]
  · have hexponent : (BitVec.ofNat 11 (e + 1023 + 52).toNat).toNat = (e + 1023 + 52).toNat := by
      rw [BitVec.toNat_ofNat, Nat.mod_eq_of_lt (by omega)]
    refine .inr ⟨_, _, fun hlast => ?_, by rw [hexponent]; omega, rfl⟩
    have hones : (-1#11).toNat = 2 ^ 11 - 1 := rfl
    rw [← hlast, hexponent] at hones
    omega
  · exact .inr ⟨_, _, by decide, by simp, rfl⟩

theorem unpack_encode_zero (s : Sign) : (encode (.zero s)).toModel.unpack = .zero s := by
  have hzero : decode s 0#11 0#52 = .zero s := by
    rw [decode_eq]
    rfl
  rw [← hzero, unpack_encode (by decide)]

/-- What is not too large is put into fields as it is, or with the least exponent. -/
theorem bounded_encode {bound : ℤ} {u : UnpackedFloat} (h : Below bound u) (hlo : -1074 ≤ bound)
    (hhi : bound ≤ 971) : Bounded bound (encode u) := by
  unfold Bounded
  cases u with
  | zero s =>
    rw [unpack_encode_zero]
    trivial
  | finite s m e hm =>
    have he : e ≤ bound := h
    obtain ⟨hlarge, -⟩ | ⟨exponent, mantissa, hne, hle, hunpack⟩ := unpack_encode_finite (s := s) (e := e) hm
    · omega
    · rw [hunpack]
      exact (below_decode hne).mono (by omega)
  | infinity s => exact h.elim
  | notANumber => exact h.elim

/-- A number that is put into fields is finite when it does not come out as an infinity. -/
theorem isFinite_encode {u : UnpackedFloat} (hu : ∃ bound, Below bound u)
    (hinf : (encode u).isInf = false) : (encode u).isFinite = true := by
  obtain ⟨bound, h⟩ := hu
  have hinf' : (encode u).toModel.unpack.isInf = false := hinf
  cases u with
  | zero s =>
    have hbounded : Bounded 0 (encode (.zero s)) := bounded_encode trivial (by decide) (by decide)
    exact hbounded.isFinite
  | finite s m e hm =>
    obtain ⟨-, hunpack⟩ | ⟨exponent, mantissa, hne, -, hunpack⟩ := unpack_encode_finite (s := s) (e := e) hm
    · rw [hunpack] at hinf'
      exact nomatch hinf'
    · have hbounded : Bounded (max (exponent.toNat - 1075) (-1074)) (encode (.finite s m e hm)) := by
        rw [Bounded, hunpack]
        exact below_decode hne
      exact hbounded.isFinite
  | infinity s => exact h.elim
  | notANumber => exact h.elim

/-- The mantissa of a double has 53 bits. -/
theorem log2_mantissa_le {x : Float} {s : Sign} {m : ℕ} {e : ℤ} {hm : 0 < m}
    (hx : x.toModel.unpack = .finite s m e hm) : m.log2 ≤ 52 := by
  have hfinite : x.isFinite = true := by
    show x.toModel.unpack.isFinite = true
    rw [hx]
    rfl
  obtain ⟨sign, exponent, mantissa, he, rfl⟩ := exists_encode hfinite
  rw [unpack_encode he, decode_eq, if_neg he] at hx
  have hlt : m < 2 ^ 53 := by
    split_ifs at hx
    · obtain ⟨-, rfl, -⟩ := UnpackedFloat.finite.inj hx
      omega
    · obtain ⟨-, rfl, -⟩ := UnpackedFloat.finite.inj hx
      rw [toNat_append_one]
      omega
  have hlog : m.log2 < 53 := (Nat.log2_lt hm.ne').mpr hlt
  omega

/-! ## Operations -/

theorem div_eq_encode (x y : Float) :
    x / y = encode (.div Format.binary64 x.toModel.unpack y.toModel.unpack) :=
  rfl

/-- The quotient of mantissas of 53 bits is computed with no more than 158 bits. -/
theorem below_div {s t : Sign} {m n : ℕ} {e f : ℤ} {hm : 0 < m} {hn : 0 < n} (hmlog : m.log2 ≤ 52)
    (hnlog : n.log2 ≤ 52) :
    Below (max (e - f) (-1074) + 314) (.div Format.binary64 (.finite s m e hm) (.finite t n f hn)) := by
  let target : ℤ := min (e - f) (max ((m.log2 + 1 + e) - (n.log2 + 1 + f) - 53) (-1074))
  let shift : ℕ := (e - f - target).toNat
  have hshift : shift ≤ 105 := by
    simp only [shift, target]
    omega
  have hquotient : (m <<< shift / n).log2 ≤ 157 := by
    refine log2_le_of_lt (lt_of_le_of_lt (Nat.div_le_self _ n) ?_)
    have hm' : m < 2 ^ 53 := (Nat.log2_lt hm.ne').mp (by omega)
    calc m <<< shift = m * 2 ^ shift := Nat.shiftLeft_eq m shift
      _ < 2 ^ 53 * 2 ^ shift := Nat.mul_lt_mul_of_pos_right hm' (Nat.two_pow_pos shift)
      _ ≤ 2 ^ 53 * 2 ^ 105 := Nat.mul_le_mul_left _ (Nat.pow_le_pow_right (by decide) hshift)
      _ = 2 ^ (157 + 1) := by rw [← pow_add]
  have hround := below_roundWithAccuracy (s / t) (m <<< shift / n) target
    (UnpackedFloat.accuracyOfFraction (m <<< shift % n) n)
  refine Below.mono (u := .div Format.binary64 (.finite s m e hm) (.finite t n f hn)) hround ?_
  have htarget : target ≤ e - f := min_le_left _ _
  omega

/-- The exponent of a product is not much more than the sum of the exponents. -/
theorem below_mul {bound bound' : ℤ} {x y : Float} (hx : Bounded bound x) (hy : Bounded bound' y) :
    Below (max (bound + bound') (-1074) + 210)
      (.mul Format.binary64 x.toModel.unpack y.toModel.unpack) := by
  unfold Bounded at hx hy
  cases hxu : x.toModel.unpack with
  | zero s =>
    cases hyu : y.toModel.unpack with
    | zero t => trivial
    | finite t n f hn => trivial
    | infinity t => rw [hyu] at hy; exact hy.elim
    | notANumber => rw [hyu] at hy; exact hy.elim
  | finite s m e hm =>
    cases hyu : y.toModel.unpack with
    | zero t => trivial
    | finite t n f hn =>
      rw [hxu] at hx
      rw [hyu] at hy
      have he : e ≤ bound := hx
      have hf : f ≤ bound' := hy
      have hm' : m < 2 ^ 53 := (Nat.log2_lt hm.ne').mp (Nat.lt_succ_of_le (log2_mantissa_le hxu))
      have hn' : n < 2 ^ 53 := (Nat.log2_lt hn.ne').mp (Nat.lt_succ_of_le (log2_mantissa_le hyu))
      have hlog : (m * n).log2 ≤ 105 :=
        log2_le_of_lt ((Nat.mul_lt_mul'' hm' hn').trans_eq (by rw [← pow_add]))
      exact (below_roundWithAccuracy (s * t) (m * n) (e + f) .exact).mono (by omega)
    | infinity t => rw [hyu] at hy; exact hy.elim
    | notANumber => rw [hyu] at hy; exact hy.elim
  | infinity s => rw [hxu] at hx; exact hx.elim
  | notANumber => rw [hxu] at hx; exact hx.elim

/-- A product is finite when it is not infinite. -/
theorem isFinite_mul {bound bound' : ℤ} {x y : Float} (hx : Bounded bound x) (hy : Bounded bound' y)
    (hinf : (x * y).isInf = false) : (x * y).isFinite = true := by
  rw [mul_eq_encode] at hinf ⊢
  exact isFinite_encode ⟨_, below_mul hx hy⟩ hinf

/-- A number that is not zero and has an exponent of at least `bound`. -/
def AtLeast (bound : ℤ) (x : Float) : Bool :=
  match x.toModel.unpack with
  | .finite _ _ e _ => bound ≤ e
  | _ => false

theorem exists_bounded {bound : ℤ} {x : Float} (h : AtLeast bound x) : ∃ bound', Bounded bound' x := by
  unfold AtLeast at h
  unfold Bounded
  cases hx : x.toModel.unpack with
  | finite s m e hm => exact ⟨e, le_rfl⟩
  | _ => simp [hx] at h

/-- A quotient by what is not small is not large. -/
theorem bounded_div {bound bound' : ℤ} {x y : Float} (hx : Bounded bound x) (hy : AtLeast bound' y)
    (hhi : max (bound - bound') (-1074) ≤ 657) : Bounded (max (bound - bound') (-1074) + 314) (x / y) := by
  rw [div_eq_encode]
  refine bounded_encode ?_ (by omega) (by omega)
  unfold AtLeast at hy
  unfold Bounded at hx
  cases hyu : y.toModel.unpack with
  | finite t n f hn =>
    have hf : bound' ≤ f := by simpa [hyu] using hy
    cases hxu : x.toModel.unpack with
    | finite s m e hm =>
      rw [hxu] at hx
      have he : e ≤ bound := hx
      exact (below_div (log2_mantissa_le hxu) (log2_mantissa_le hyu)).mono (by omega)
    | zero s => trivial
    | infinity s => rw [hxu] at hx; exact hx.elim
    | notANumber => rw [hxu] at hx; exact hx.elim
  | _ => simp [hyu] at hy

/-! ## Integers -/

theorem shiftLeft_lt {m k b : ℕ} (hm : m < 2 ^ b) : m <<< k < 2 ^ (b + k) := by
  rw [Nat.shiftLeft_eq, pow_add]
  exact Nat.mul_lt_mul_of_pos_right hm (Nat.two_pow_pos k)

/-- The exponent of an integer of 64 bits is not large. -/
theorem bounded_toFloat (n : UInt64) : Bounded 230 n.toFloat := by
  show Bounded 230 (encode (.normalize Format.binary64 n.toNat 0 .positive))
  refine bounded_encode ?_ (by decide) (by decide)
  unfold UnpackedFloat.normalize
  split
  · next hlt =>
    have hneg : (n.toNat : ℤ) < 0 := compare_lt_iff_lt.mp hlt
    omega
  · trivial
  · rw [Int.toNat_natCast]
    let shift : ℕ := (0 - max ((n.toNat.log2 : ℤ) + 1 + 0 - 53) (-1074)).toNat
    have hshift : shift ≤ 52 := by
      simp only [shift]
      omega
    have hlog : (n.toNat <<< shift).log2 ≤ 115 :=
      log2_le_of_lt ((shiftLeft_lt n.toNat_lt).trans_le (Nat.pow_le_pow_right (by decide) (by omega)))
    have hround : Below (max (0 - (shift : ℤ)) (-1074) + 2 * (n.toNat <<< shift).log2)
        (.round Format.binary64 .positive n.toNat 0) :=
      below_roundWithAccuracy .positive (n.toNat <<< shift) (0 - shift) .exact
    exact hround.mono (by omega)

theorem bounded_one : Bounded (-52) (Float.ofBits 0x3FF0000000000000) := by
  have hone : (Float.ofBits 0x3FF0000000000000) = encode (decode .positive 1023#11 0#52) := by
    decide +kernel
  rw [hone, Bounded, unpack_encode (by decide)]
  exact (below_decode (by decide)).mono (by decide)

/-- A number of 64 bits is a double whose exponent is not large. -/
theorem bounded_ofNat {n : ℕ} (hn : n < 2 ^ 64) : Bounded 388 (Float.ofNat n) := by
  show Bounded 388 (Float.ofScientific n false 0)
  unfold Float.ofScientific
  split
  · have hproduct : Bounded 388 (n.toUInt64.toFloat * Float.ofBits 0x3FF0000000000000) := by
      rw [mul_eq_encode]
      exact bounded_encode ((below_mul (bounded_toFloat _) bounded_one).mono (by decide)) (by decide)
        (by decide)
    exact hproduct
  · next h =>
    have hpos : n ≠ 0 := by rintro rfl; exact h ⟨by decide, by decide⟩
    show Bounded 388 (encode (.ofScientific Format.binary64 n 0))
    have hmul : UnpackedFloat.ofScientific Format.binary64 n 0 =
        .roundWithAccuracy Format.binary64 (.positive * .positive) (n <<< 53 * 1) (-53 + 0) .exact := by
      have hlarge : ¬(0 : ℤ) > 2 ^ 11 := by decide
      have hsmall : ¬(0 : ℤ) < -(2 ^ 11 + n.log2) := by omega
      rw [UnpackedFloat.ofScientific, dif_neg hpos, if_neg hlarge, if_neg hsmall, if_pos le_rfl]
      rfl
    have hlog : (n <<< 53 * 1).log2 ≤ 116 := by
      rw [Nat.mul_one]
      exact log2_le_of_lt (shiftLeft_lt hn)
    rw [hmul]
    generalize n <<< 53 * 1 = m at hlog
    have hround := below_roundWithAccuracy (.positive * .positive) m (-53 + 0) .exact
    exact bounded_encode (hround.mono (by omega)) (by decide) (by decide)

/-! ## Signs -/

theorem isFinite_neg {x : Float} (hx : x.isFinite = true) : (-x).isFinite = true := by
  obtain ⟨s, e, m, he, rfl⟩ := exists_encode hx
  rw [neg_encode he]
  have hbounded : Bounded (max (e.toNat - 1075) (-1074)) (encode (decode (-s) e m)) := by
    rw [Bounded, unpack_encode he]
    exact below_decode he
  exact hbounded.isFinite

end LinearProgram.Double
