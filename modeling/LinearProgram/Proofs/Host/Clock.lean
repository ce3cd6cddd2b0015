import Mathlib
import LinearProgram.Host.Clock

/-!
# When a budget is used up

The deadline of a budget is the nanosecond nearest to its exact end (`deadline?_near`), and a budget that is
not above zero ends when it begins (`deadline?_of_not_pos`).
-/

namespace LinearProgram

namespace Decimal

theorem powPos_div_powNeg (base : ℕ) (e : ℤ) : (powPos base e : ℚ) / powNeg base e = (base : ℚ) ^ e := by
  obtain ⟨n, rfl | rfl⟩ := e.eq_nat_or_neg <;> simp [powPos, powNeg]

/-- A rounded quotient is off by a half at most. -/
theorem roundHalfEven_near (num : ℕ) {den : ℕ} (hden : 0 < den) :
    |(roundHalfEven num den : ℚ) - num / den| ≤ 1 / 2 := by
  have hnum : (num : ℚ) = den * (num / den : ℕ) + (num % den : ℕ) := by
    exact_mod_cast (Nat.div_add_mod num den).symm
  have hdenQ : (0 : ℚ) < den := by exact_mod_cast hden
  have hrest : (num % den : ℕ) / (den : ℚ) = num / den - (num / den : ℕ) := by
    rw [hnum]
    field_simp
    ring
  -- the rest, in halves of the denominator, says which neighbour is taken
  have hnonneg : (0 : ℚ) ≤ (num % den : ℕ) / den := by positivity
  have hlt : ((num % den : ℕ) : ℚ) / den < 1 := by
    rw [div_lt_one hdenQ]
    exact_mod_cast Nat.mod_lt num hden
  unfold roundHalfEven
  dsimp only
  rcases lt_trichotomy (2 * (num % den)) den with hless | hhalf | hmore
  · have hless' : ((num % den : ℕ) : ℚ) / den < 1 / 2 := by
      rw [div_lt_div_iff₀ hdenQ two_pos]
      exact_mod_cast by omega
    rw [if_pos hless, abs_le]
    constructor <;> linarith
  · have hhalf' : ((num % den : ℕ) : ℚ) / den = 1 / 2 := by
      rw [div_eq_div_iff hdenQ.ne' two_ne_zero]
      exact_mod_cast by omega
    rw [if_neg hhalf.not_lt, if_neg hhalf.not_gt, abs_le]
    rcases Nat.mod_two_eq_zero_or_one (num / den) with heven | hodd
    · rw [heven]
      push_cast
      constructor <;> linarith
    · rw [hodd]
      push_cast
      constructor <;> linarith
  · have hmore' : (1 : ℚ) / 2 < (num % den : ℕ) / den := by
      rw [div_lt_div_iff₀ two_pos hdenQ]
      exact_mod_cast by omega
    rw [if_neg hmore.not_gt, if_pos hmore, abs_le]
    push_cast
    constructor <;> linarith

end Decimal

variable {start : ℕ} {seconds : Float}

/-- A budget that is not above zero, or not a number, ends when it begins. -/
theorem deadline?_of_not_pos (h : seconds.isNaN = true ∨ seconds ≤ 0) (hstart : start < endOfTime) :
    deadline? start seconds = some start := by
  have hnone : nanoseconds? seconds = some 0 := if_pos (by simpa using h)
  simp [deadline?, hnone, hstart]

/-- **A budget ends at the nanosecond nearest to its end.** -/
theorem deadline?_near (hnan : seconds.isNaN = false) (hpos : ¬seconds ≤ 0) {b : Decimal.Binary}
    (hb : Decimal.Binary.ofFloat? seconds = some b) {deadline : ℕ}
    (h : deadline? start seconds = some deadline) :
    |(deadline : ℚ) - (start + b.mantissa * 2 ^ b.exponent * 1000000000)| ≤ 1 / 2 := by
  let num := b.mantissa * Decimal.powPos 2 b.exponent * nanosecondsPerSecond
  let den := Decimal.powNeg 2 b.exponent
  have hden : 0 < den := Nat.pow_pos two_pos
  have hbudget : nanoseconds? seconds = some (Decimal.roundHalfEven num den) := by
    have hrounded : ¬(seconds.isNaN || decide (seconds ≤ 0)) = true := by
      rwa [hnan, Bool.false_or, decide_eq_true_eq]
    rw [nanoseconds?, if_neg hrounded, hb]
  have hexact : (num : ℚ) / den = b.mantissa * 2 ^ b.exponent * 1000000000 := by
    have hpower := Decimal.powPos_div_powNeg 2 b.exponent
    simp only [num, den, nanosecondsPerSecond]
    push_cast at hpower ⊢
    rw [← hpower]
    ring
  rw [deadline?, hbudget] at h
  obtain ⟨-, hsum⟩ := (Option.ite_none_right_eq_some ..).mp h
  obtain rfl := Option.some.inj hsum
  rw [← hexact]
  push_cast
  simpa using Decimal.roundHalfEven_near num hden

end LinearProgram
