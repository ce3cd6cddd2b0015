import Mathlib
import LinearProgram.Proofs.Rational.Scalar

/-!
# Sums of products over columns

`dot cs x` is the sum of the entries of `cs`, each times the value that `x` gives to its column. Dense
rows, equations and reduced costs are all read through it: there is one lemma for every list operation
that the dense form and the tableau are made with, so that later modules do not split sums.
-/

namespace LinearProgram

/-- The sum of the entries of a list times the values of the columns they stand in. -/
def dot (cs : List ℚ) (x : ℕ → ℚ) : ℚ :=
  ∑ j ∈ Finset.range cs.length, cs.getD j 0 * x j

/-- Columns beyond the last one contribute nothing. -/
theorem dot_eq_sum {cs : List ℚ} {n : ℕ} (h : cs.length ≤ n) (x : ℕ → ℚ) :
    dot cs x = ∑ j ∈ Finset.range n, cs.getD j 0 * x j := by
  refine Finset.sum_subset (Finset.range_mono h) ?_
  intro j _ hj
  have hj' : cs.length ≤ j := by simpa using hj
  rw [List.getD_eq_default _ _ hj', zero_mul]

/-- Only the values of the columns that are there matter. -/
theorem dot_congr {cs : List ℚ} {x y : ℕ → ℚ} (h : ∀ j < cs.length, x j = y j) :
    dot cs x = dot cs y :=
  Finset.sum_congr rfl fun j hj => by rw [h j (Finset.mem_range.mp hj)]

/-! ## In the values -/

theorem dot_add (cs : List ℚ) (x y : ℕ → ℚ) :
    dot cs (fun j => x j + y j) = dot cs x + dot cs y := by
  simp only [dot, mul_add, Finset.sum_add_distrib]

/-- The values of one column only. -/
theorem dot_single (cs : List ℚ) (k : ℕ) (v : ℚ) :
    dot cs (fun j => if j = k then v else 0) = cs.getD k 0 * v := by
  rw [dot_eq_sum (Nat.le_max_left cs.length (k + 1))]
  rw [Finset.sum_eq_single k]
  · rw [if_pos rfl]
  · intro j _ hj
    rw [if_neg hj, mul_zero]
  · intro hk
    exact absurd (Finset.mem_range.mpr (lt_of_lt_of_le (Nat.lt_succ_self k) (Nat.le_max_right _ _))) hk

/-- Entries that are not positive and values that are not negative give a sum that is not positive. -/
theorem dot_nonpos {cs : List ℚ} {x : ℕ → ℚ}
    (h : ∀ j < cs.length, cs.getD j 0 * x j ≤ 0) : dot cs x ≤ 0 :=
  Finset.sum_nonpos fun j hj => h j (Finset.mem_range.mp hj)

/-! ## In the entries -/

theorem getD_map_of_zero {f : ℚ → ℚ} (h : f 0 = 0) (cs : List ℚ) (j : ℕ) :
    (cs.map f).getD j 0 = f (cs.getD j 0) := by
  rw [List.getD_eq_getElem?_getD, List.getElem?_map, List.getD_eq_getElem?_getD]
  cases cs[j]? with
  | none => exact h.symm
  | some c => rfl

theorem getD_zipWith_of_zero {f : ℚ → ℚ → ℚ} (h : f 0 0 = 0) {as bs : List ℚ}
    (hlen : bs.length = as.length) (j : ℕ) :
    (List.zipWith f as bs).getD j 0 = f (as.getD j 0) (bs.getD j 0) := by
  rw [List.getD_eq_getElem?_getD, List.getElem?_zipWith]
  by_cases hj : j < as.length
  · rw [List.getElem?_eq_getElem hj, List.getElem?_eq_getElem (hlen ▸ hj)]
    simp [List.getD_eq_getElem?_getD, hj, hlen ▸ hj]
  · rw [List.getElem?_eq_none (not_lt.mp hj),
      List.getD_eq_default _ _ (not_lt.mp hj),
      List.getD_eq_default _ _ (hlen ▸ not_lt.mp hj), h]
    rfl

theorem dot_map_div (cs : List ℚ) (p : ℚ) (x : ℕ → ℚ) :
    dot (cs.map (· / p)) x = dot cs x / p := by
  have h (j : ℕ) : (cs.map (· / p)).getD j 0 = cs.getD j 0 / p :=
    getD_map_of_zero (f := fun c => c / p) (zero_div p) cs j
  simp only [dot, List.length_map, h, Finset.sum_div]
  exact Finset.sum_congr rfl fun j _ => by ring

theorem dot_map_neg (cs : List ℚ) (x : ℕ → ℚ) : dot (cs.map fun c => -c) x = -dot cs x := by
  simp only [dot, List.length_map, getD_map_of_zero neg_zero, neg_mul, Finset.sum_neg_distrib]

theorem dot_zipWith_add {as bs : List ℚ} (h : bs.length = as.length) (x : ℕ → ℚ) :
    dot (List.zipWith (· + ·) as bs) x = dot as x + dot bs x := by
  simp only [dot, List.length_zipWith, h, min_self, getD_zipWith_of_zero (add_zero 0) h, add_mul,
    Finset.sum_add_distrib]

theorem dot_zipWith_sub_mul {as bs : List ℚ} (h : bs.length = as.length) (c : ℚ) (x : ℕ → ℚ) :
    dot (List.zipWith (fun a b => a - c * b) as bs) x = dot as x - c * dot bs x := by
  have hentry (j : ℕ) : (List.zipWith (fun a b => a - c * b) as bs).getD j 0 =
      as.getD j 0 - c * bs.getD j 0 :=
    getD_zipWith_of_zero (f := fun a b => a - c * b) (by ring) h j
  simp only [dot, List.length_zipWith, h, min_self, hentry, Finset.mul_sum,
    ← Finset.sum_sub_distrib]
  exact Finset.sum_congr rfl fun j _ => by ring

theorem getD_replicate_zero (n j : ℕ) : (List.replicate n (0 : ℚ)).getD j 0 = 0 := by
  rw [List.getD_eq_getElem?_getD, List.getElem?_replicate]
  split <;> rfl

@[simp]
theorem dot_replicate_zero (n : ℕ) (x : ℕ → ℚ) : dot (List.replicate n 0) x = 0 := by
  refine Finset.sum_eq_zero ?_
  intro j _
  rw [getD_replicate_zero, zero_mul]

/-- Zeros at the end do not count. -/
theorem getD_append_zeros (cs : List ℚ) (n j : ℕ) :
    (cs ++ List.replicate n 0).getD j 0 = cs.getD j 0 := by
  by_cases hj : j < cs.length
  · rw [List.getD_append _ _ _ _ hj]
  · rw [List.getD_append_right _ _ _ _ (not_lt.mp hj), getD_replicate_zero,
      List.getD_eq_default _ _ (not_lt.mp hj)]

theorem dot_append_zeros (cs : List ℚ) (n : ℕ) (x : ℕ → ℚ) :
    dot (cs ++ List.replicate n 0) x = dot cs x := by
  have h : cs.length ≤ (cs ++ List.replicate n 0).length := by simp
  rw [dot_eq_sum h, dot]
  exact Finset.sum_congr rfl fun j _ => by rw [getD_append_zeros]

theorem getD_set (cs : List ℚ) {k : ℕ} (hk : k < cs.length) (v : ℚ) (j : ℕ) :
    (cs.set k v).getD j 0 = if j = k then v else cs.getD j 0 := by
  rw [List.getD_eq_getElem?_getD, List.getElem?_set, List.getD_eq_getElem?_getD]
  by_cases h : j = k
  · subst h
    simp [hk]
  · simp [h, Ne.symm h]

/-- A new entry adds its difference to the old one, times the value of its column. -/
theorem dot_set (cs : List ℚ) {k : ℕ} (hk : k < cs.length) (v : ℚ) (x : ℕ → ℚ) :
    dot (cs.set k v) x = dot cs x + (v - cs.getD k 0) * x k := by
  have hsum : dot (cs.set k v) x = dot cs x + dot cs (fun _ => 0) +
      ∑ j ∈ Finset.range cs.length, if j = k then (v - cs.getD k 0) * x k else 0 := by
    simp only [dot, List.length_set, ← Finset.sum_add_distrib]
    refine Finset.sum_congr rfl ?_
    intro j _
    rw [getD_set cs hk]
    by_cases h : j = k
    · subst h
      rw [if_pos rfl, if_pos rfl]
      ring
    · rw [if_neg h, if_neg h]
      ring
  rw [hsum, Finset.sum_ite_eq', if_pos (Finset.mem_range.mpr hk)]
  simp [dot]

/-- Increasing an entry. -/
theorem dot_modify_add (cs : List ℚ) {k : ℕ} (hk : k < cs.length) (c : ℚ) (x : ℕ → ℚ) :
    dot (cs.modify k (· + c)) x = dot cs x + c * x k := by
  rw [List.modify_eq_set_getElem?]
  simp only [List.getElem?_eq_getElem hk, Option.map_some, Option.getD_some, Option.map_eq_map]
  rw [dot_set cs hk, List.getD_eq_getElem _ _ hk]
  ring

end LinearProgram
