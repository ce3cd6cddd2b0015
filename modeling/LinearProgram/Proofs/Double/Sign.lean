import Mathlib
import LinearProgram.Scalar

/-!
# The sign of a double

A double is a sign, an exponent and a mantissa, each in bits of its own. Its magnitude and its negation
have the same exponent and mantissa, so that a finite double is its magnitude with the sign put back. That
is not true of minus zero, but a sum that starts from zero does not tell the two zeros apart
(`zero_add_signed_abs`).
-/

namespace LinearProgram.Double

open Float.Model (Format UnpackedFloat)
open Float.Model.UnpackedFloat (Sign packComponents unpackSign unpackExponent unpackMantissa)

/-! ## Fields -/

/-- What the fields stand for. -/
def decode (sign : Sign) (exponent : BitVec 11) (mantissa : BitVec 52) : UnpackedFloat :=
  .unpack Format.binary64 (packComponents Format.binary64 sign exponent mantissa)

theorem ofBitVec_toBitVec (s : Sign) : Sign.ofBitVec s.toBitVec = s := by
  cases s <;> rfl

theorem toBitVec_ofBitVec (b : BitVec 1) : (Sign.ofBitVec b).toBitVec = b := by
  revert b
  decide

theorem unpackSign_packComponents {sign : Sign} {exponent : BitVec 11} {mantissa : BitVec 52} :
    unpackSign (packComponents Format.binary64 sign exponent mantissa) = sign.toBitVec := by
  ext i hi
  simp only [unpackSign, packComponents, BitVec.extractLsb]
  grind

/-- Bits are the fields cut from them. -/
theorem packComponents_unpack (b : BitVec Format.binary64.numBits) :
    packComponents Format.binary64 (Sign.ofBitVec (unpackSign b)) (unpackExponent b) (unpackMantissa b) =
      b := by
  simp only [packComponents, toBitVec_ofBitVec, unpackSign, unpackExponent, unpackMantissa,
    BitVec.extractLsb]
  ext i hi
  grind

theorem toNat_append_one (m : BitVec 52) : (1#1 ++ m).toNat = 2 ^ 52 + m.toNat := by
  rw [BitVec.toNat_append, ← Nat.shiftLeft_add_eq_or_of_lt m.isLt]
  rfl

section Decode

variable {s : Sign} {e : BitVec 11} {m : BitVec 52}

/-- The exponent of all ones is for what is not finite, and that of all zeros for numbers without a
leading one. -/
theorem decode_eq : decode s e m =
    if e = -1#11 then if m = 0#52 then .infinity s else .notANumber
    else if e = 0#11 then
      if h : m = 0#52 then .zero s
      else .finite s m.toNat (e.toNat - 1075 + 1) (by simpa [BitVec.toNat_pos, BitVec.pos_iff_ne_zero] using h)
    else .finite s (1#1 ++ m).toNat (e.toNat - 1075) (by rw [toNat_append_one]; omega) := by
  unfold decode UnpackedFloat.unpack
  simp only [UnpackedFloat.unpackMantissa_packComponents, UnpackedFloat.unpackExponent_packComponents,
    unpackSign_packComponents, ofBitVec_toBitVec]
  rfl

/-- The magnitude has the other sign field. -/
theorem abs_decode : (decode s e m).abs = decode .positive e m := by
  rw [decode_eq, decode_eq]
  split_ifs <;> rfl

theorem neg_decode : (decode s e m).neg = decode (-s) e m := by
  rw [decode_eq, decode_eq]
  split_ifs <;> rfl

/-- What is finite has an exponent that is not of all ones. -/
theorem ne_of_isFinite_decode (h : (decode s e m).isFinite = true) : e ≠ -1#11 := by
  rintro rfl
  rw [decode_eq, if_pos rfl] at h
  split at h <;> exact Bool.false_ne_true h

/-- A finite number is put into the fields that it was made from. -/
theorem pack_decode (he : e ≠ -1#11) :
    UnpackedFloat.pack Format.binary64 (decode s e m) = packComponents Format.binary64 s e m := by
  have hlt : e.toNat + 1 < 2 ^ 11 := by
    have hlast : e.toNat ≠ 2 ^ 11 - 1 := fun h => he (BitVec.eq_of_toNat_eq h)
    omega
  rw [decode_eq, if_neg he]
  split
  · next h0 =>
    subst h0
    split
    · next hm => rw [hm]; rfl
    · next hm =>
      -- without a leading one the mantissa has fewer than all its bits
      have hlog : m.toNat.log2 < 52 := (Nat.log2_lt fun h => hm (BitVec.eq_of_toNat_eq h)).mpr m.isLt
      show (if 2 ^ 11 ≤ 2 then UnpackedFloat.packedInfinity Format.binary64 s
        else if m.toNat.log2 + 1 = 53 then
          packComponents Format.binary64 s (BitVec.ofNat 11 1) (BitVec.ofNat 52 m.toNat)
        else packComponents Format.binary64 s 0#11 (BitVec.ofNat 52 m.toNat)) = _
      rw [if_neg (by decide), if_neg (by omega), BitVec.ofNat_toNat, BitVec.setWidth_eq]
  · next h0 =>
    have hlog : (1#1 ++ m).toNat.log2 = 52 := by
      rw [toNat_append_one, Nat.log2_eq_iff (by omega)]
      omega
    have hbiased : ((e.toNat : ℤ) - 1075 + 1023 + 52).toNat = e.toNat := by omega
    show (if 2 ^ 11 ≤ ((e.toNat : ℤ) - 1075 + 1023 + 52).toNat + 1 then
        UnpackedFloat.packedInfinity Format.binary64 s
      else if (1#1 ++ m).toNat.log2 + 1 = 53 then
        packComponents Format.binary64 s (BitVec.ofNat 11 ((e.toNat : ℤ) - 1075 + 1023 + 52).toNat)
          (BitVec.ofNat 52 (1#1 ++ m).toNat)
      else packComponents Format.binary64 s 0#11 (BitVec.ofNat 52 (1#1 ++ m).toNat)) = _
    have hmantissa : BitVec.ofNat 52 (1#1 ++ m).toNat = m := by
      rw [toNat_append_one]
      apply BitVec.eq_of_toNat_eq
      rw [BitVec.toNat_ofNat]
      omega
    rw [hbiased, if_neg (by omega), if_pos (by omega), hmantissa, BitVec.ofNat_toNat, BitVec.setWidth_eq]

end Decode

/-! ## Finite doubles -/

/-- The double that a number is rounded to when it is put into fields. -/
def encode (u : UnpackedFloat) : Float :=
  .ofModel (.pack u)

theorem unpack_encode {s : Sign} {e : BitVec 11} {m : BitVec 52} (he : e ≠ -1#11) :
    (encode (decode s e m)).toModel.unpack = decode s e m := by
  show UnpackedFloat.unpack Format.binary64 (UnpackedFloat.pack Format.binary64 (decode s e m)) = _
  rw [pack_decode he]
  rfl

/-- A finite double is made from its fields. -/
theorem exists_encode {x : Float} (hx : x.isFinite = true) :
    ∃ s e m, e ≠ -1#11 ∧ x = encode (decode s e m) := by
  obtain ⟨⟨bits, valid⟩⟩ := x
  let b : BitVec Format.binary64.numBits := bits.toBitVec
  have hunpack : UnpackedFloat.unpack Format.binary64 b =
      decode (.ofBitVec (unpackSign b)) (unpackExponent b) (unpackMantissa b) := by
    rw [decode, packComponents_unpack]
  have hfinite : (UnpackedFloat.unpack Format.binary64 b).isFinite = true := hx
  rw [hunpack] at hfinite
  have he := ne_of_isFinite_decode hfinite
  refine ⟨.ofBitVec (unpackSign b), unpackExponent b, unpackMantissa b, he, ?_⟩
  rw [encode, Float.ofModel.injEq, Float.Model.pack, Float.Model.mk.injEq, pack_decode he,
    packComponents_unpack]

/-! ## Signs put back -/

/-- A magnitude with its sign. -/
def signed (negative : Bool) (x : Float) : Float :=
  if negative then -x else x

section Encode

variable {s : Sign} {e : BitVec 11} {m : BitVec 52} (he : e ≠ -1#11)
include he

theorem abs_encode : (encode (decode s e m)).abs = encode (decode .positive e m) := by
  show encode (encode (decode s e m)).toModel.unpack.abs = _
  rw [unpack_encode he, abs_decode]

theorem neg_encode : -encode (decode s e m) = encode (decode (-s) e m) := by
  show encode (encode (decode s e m)).toModel.unpack.neg = _
  rw [unpack_encode he, neg_decode]

/-- A number is below zero when its sign is negative and it is not a zero. -/
theorem lt_zero_encode : encode (decode s e m) < 0 ↔ s = .negative ∧ ¬(e = 0#11 ∧ m = 0#52) := by
  have hlt : encode (decode s e m) < 0 ↔
      (encode (decode s e m)).toModel.unpack.lt (.zero .positive) = true := decide_eq_true_iff
  rw [hlt, unpack_encode he, decode_eq, if_neg he]
  split
  · next h0 =>
    split
    · next hm =>
      cases s <;> simp [UnpackedFloat.lt, UnpackedFloat.compare, h0, hm]
    · next hm =>
      cases s <;> simp [UnpackedFloat.lt, UnpackedFloat.compare, hm]
  · next h0 =>
    cases s <;> simp [UnpackedFloat.lt, UnpackedFloat.compare, h0]

end Encode

/-- The magnitude of a finite number is finite. -/
theorem isFinite_abs {x : Float} (hx : x.isFinite = true) : x.abs.isFinite = true := by
  obtain ⟨s, e, m, he, rfl⟩ := exists_encode hx
  rw [abs_encode he]
  show (encode (decode .positive e m)).toModel.unpack.isFinite = true
  rw [unpack_encode he, decode_eq, if_neg he]
  split_ifs <;> rfl

/-- A finite number is its magnitude with its sign, and minus zero counts as zero in a sum that starts
from zero. -/
theorem zero_add_signed_abs {x : Float} (hx : x.isFinite = true) :
    (0 : Float) + signed (decide (x < 0)) x.abs = 0 + x := by
  obtain ⟨s, e, m, he, rfl⟩ := exists_encode hx
  rw [abs_encode he, signed]
  by_cases hzero : e = 0#11 ∧ m = 0#52
  · obtain ⟨rfl, rfl⟩ := hzero
    cases s <;> decide +kernel
  · cases s with
    | negative =>
      rw [if_pos (decide_eq_true ((lt_zero_encode he).mpr ⟨rfl, hzero⟩)), neg_encode he]
      rfl
    | positive =>
      rw [if_neg]
      rw [decide_eq_true_iff, lt_zero_encode he]
      exact fun h => Sign.noConfusion h.1

end LinearProgram.Double
