import Mathlib
import LinearProgram.Decimal.Plain
import LinearProgram.Decimal.Read
import LinearProgram.Proofs.Text.Words

/-!
# Numbers as words

Every number is printed as one word: natural numbers in their digits, which read back, and doubles with
a sign, digits and a point, or in letters.
-/

namespace LinearProgram.Decimal

open Text

/-! ## Natural numbers -/

@[simp]
theorem toList_natText (n : ℕ) : (natText n).toList = Nat.toDigits 10 n :=
  String.toList_ofList

/-- The digits of a natural number stand for it. -/
theorem ofDigits_toDigits (n : ℕ) : ofDigits (Nat.toDigits 10 n) = n :=
  Nat.ofDigitChars_ten_toDigits

theorem isDigit_of_mem_toDigits {n : ℕ} {c : Char} (hc : c ∈ Nat.toDigits 10 n) : c.isDigit = true :=
  Nat.isDigit_of_mem_toDigits (by decide) (by decide) hc

theorem isBlank_of_isDigit {c : Char} (h : c.isDigit = true) : isBlank c = false := by
  obtain ⟨hlo, hhi⟩ : 48 ≤ c.toNat ∧ c.toNat ≤ 57 := by
    simpa [Char.isDigit, UInt32.le_iff_toNat_le] using h
  simp only [isBlank, blankRanges, List.any_cons, List.any_nil, Bool.or_false, Bool.or_eq_false_iff,
    Bool.and_eq_false_iff, decide_eq_false_iff_not]
  omega

theorem isWord_natText (n : ℕ) : IsWord (natText n) where
  ne_nil := by
    rw [toList_natText]
    exact Nat.toDigits_ne_nil
  not_blank c hc := by
    rw [toList_natText] at hc
    exact isBlank_of_isDigit (isDigit_of_mem_toDigits hc)

/-! ## Doubles -/

/-- Digits and points, among them at least one character. -/
structure IsFigure (w : String) : Prop where
  ne_nil : w.toList ≠ []
  mem : ∀ c ∈ w.toList, c.isDigit = true ∨ c = '.'

theorem IsFigure.isWord {w : String} (h : IsFigure w) : IsWord w where
  ne_nil := h.ne_nil
  not_blank c hc := by
    rcases h.mem c hc with hdigit | rfl
    · exact isBlank_of_isDigit hdigit
    · decide

theorem isFigure_natText (n : ℕ) : IsFigure (natText n) where
  ne_nil := (isWord_natText n).ne_nil
  mem c hc := by
    rw [toList_natText] at hc
    exact .inl (isDigit_of_mem_toDigits hc)

/-- A position is written in digits with at most one point. -/
theorem isFigure_positional (d : Digits) : IsFigure d.positional := by
  have hdigits := isFigure_natText d.digits
  have hzero {n : ℕ} {c : Char} (hc : c ∈ List.replicate n '0') : c.isDigit = true ∨ c = '.' := by
    rw [List.eq_of_mem_replicate hc]
    decide
  unfold Digits.positional
  simp only
  split
  · refine ⟨by simp, fun c hc => ?_⟩
    rw [String.toList_append, List.mem_append, String.toList_ofList] at hc
    exact hc.elim (hdigits.mem c) hzero
  · split
    · refine ⟨by simp, fun c hc => ?_⟩
      simp only [String.toList_append, String.toList_ofList, List.mem_append] at hc
      rcases hc with (hc | hc) | hc
      · exact hdigits.mem c (List.mem_of_mem_take hc)
      · exact .inr (by simpa using hc)
      · exact hdigits.mem c (List.mem_of_mem_drop hc)
    · refine ⟨by simp, fun c hc => ?_⟩
      simp only [String.toList_append, String.toList_ofList, List.mem_append] at hc
      rcases hc with (hc | hc) | hc
      · have hmem : c = '0' ∨ c = '.' := by simpa using hc
        exact hmem.imp_left fun hzero => by rw [hzero]; decide
      · exact hzero hc
      · exact hdigits.mem c hc

theorem isWord_plain (x : Float) : IsWord (plain x) := by
  unfold plain
  split
  · unfold specialText
    split
    · decide +kernel
    · split <;> decide +kernel
  · next b _ =>
    have hfigure := (isFigure_positional (b.shortest .up)).isWord
    unfold signText
    split
    · exact .append (by decide +kernel) hfigure
    · rwa [String.empty_append]

end LinearProgram.Decimal
