import Mathlib
import LinearProgram.Proofs.Simplex.HandOver

/-!
# What dropped rows leave behind

At a tolerance a row may be dropped although it says something. Its artificial variable then occurs in no
row that is left and in no other row that was dropped (`Detached`), so a solution of the rows that are
left becomes one of all rows when each of these variables takes up the gap of its own row (`restore`).
-/

namespace LinearProgram.Tableau

/-! ## Detached rows -/

/-- The rows `ds` contain their own basic variables once; the other rows, those of `t` included, do not
contain them, and `ds` do not contain the basic variables of the first `count` rows of `t`. -/
structure Detached (count : ℕ) (t : Tableau ℚ) (ds : List (BasicRow ℚ)) : Prop where
  artificial : ∀ d ∈ ds, t.firstArtificial ≤ d.basic
  basic_lt : ∀ d ∈ ds, d.basic < t.numColumns
  one : ∀ d ∈ ds, d.equation.entry d.basic = 1
  pairwise : ds.Pairwise fun d d' =>
    d'.equation.entry d.basic = 0 ∧ d.equation.entry d'.basic = 0
  clear : ∀ d ∈ ds, ∀ r ∈ t.rows, r.equation.entry d.basic = 0
  ahead : ∀ d ∈ ds, ∀ k < count, ∀ r, t.rows[k]? = some r → d.equation.entry r.basic = 0

/-- A column that no row contains is not brought back by a pivot. -/
theorem entry_pivot_eq_zero {t : Tableau ℚ} (h : t.Canonical) {row col j : ℕ} {r : BasicRow ℚ}
    (hr : t.rows[row]? = some r) (hj : ∀ s ∈ t.rows, s.equation.entry j = 0) :
    ∀ s ∈ (t.pivot row col).rows, s.equation.entry j = 0 := by
  intro s' hs'
  obtain ⟨k, s, hs, rfl⟩ := mem_rows_pivot hr hs'
  have hrj := hj r (List.mem_of_getElem? hr)
  by_cases hk : k = row
  · rw [pivoted, if_pos hk, Equation.entry_divide, hrj, zero_div]
  · rw [entry_pivoted_of_ne h hr hs hk, hj s (List.mem_of_getElem? hs), hrj, zero_div, mul_zero,
      sub_zero]

namespace Detached

variable {row : ℕ} {t : Tableau ℚ} {ds : List (BasicRow ℚ)}

theorem start (count : ℕ) (t : Tableau ℚ) : Detached count t [] :=
  ⟨by simp, by simp, by simp, List.Pairwise.nil, by simp, by simp⟩

theorem mono (h : Detached (row + 1) t ds) : Detached row t ds where
  __ := h
  ahead d hd k hk := h.ahead d hd k (Nat.lt_succ_of_lt hk)

/-- A pivot beyond the first `count` rows keeps rows detached. -/
theorem pivot {count : ℕ} (h : Detached count t ds) (hle : count ≤ row) (hc : t.Canonical)
    {r : BasicRow ℚ} {col : ℕ} (hr : t.rows[row]? = some r) :
    Detached count (t.pivot row col) ds where
  artificial d hd := by
    rw [firstArtificial_pivot]
    exact h.artificial d hd
  basic_lt d hd := by
    rw [numColumns_pivot]
    exact h.basic_lt d hd
  one := h.one
  pairwise := h.pairwise
  clear d hd := entry_pivot_eq_zero hc hr (h.clear d hd)
  ahead d hd k hk s' hs' := by
    rw [getElem?_rows_pivot hr, Option.map_eq_some_iff] at hs'
    obtain ⟨s, hs, rfl⟩ := hs'
    rw [pivoted, if_neg (by omega)]
    exact h.ahead d hd k hk s hs

/-- A dropped row joins the detached ones: the other rows do not contain its basic variable, nor does it
contain theirs. -/
theorem drop (h : Detached (row + 1) t ds) (hc : t.Canonical) {r : BasicRow ℚ}
    (hr : t.rows[row]? = some r) (ha : t.isArtificial r = true) :
    Detached row (t.drop row) (ds ++ [r]) := by
  have hmem := List.mem_of_getElem? hr
  -- rows that are left were in another place
  have hplace {k : ℕ} {s : BasicRow ℚ} (hs : (t.drop row).rows[k]? = some s) :
      ∃ i, i ≠ row ∧ (k < row → i < row) ∧ t.rows[i]? = some s := by
    rw [getElem?_rows_drop] at hs
    split at hs
    · exact ⟨k, by omega, id, hs⟩
    · exact ⟨k + 1, by omega, by omega, hs⟩
  refine ⟨?_, ?_, ?_, ?_, ?_, ?_⟩
  · simp only [List.forall_mem_append, List.forall_mem_singleton]
    exact ⟨h.artificial, isArtificial_eq_true.mp ha⟩
  · simp only [List.forall_mem_append, List.forall_mem_singleton]
    exact ⟨h.basic_lt, hc.basic_lt r hmem⟩
  · simp only [List.forall_mem_append, List.forall_mem_singleton]
    exact ⟨h.one, hc.entry_basic hmem⟩
  · refine List.pairwise_append.mpr ⟨h.pairwise, List.pairwise_singleton _ _, ?_⟩
    intro d hd s hs
    rw [List.mem_singleton.mp hs]
    exact ⟨h.clear d hd r hmem, h.ahead d hd row (Nat.lt_succ_self row) r hr⟩
  · simp only [List.forall_mem_append, List.forall_mem_singleton]
    refine ⟨fun d hd s hs => h.clear d hd s (mem_rows_of_mem_drop hs), ?_⟩
    intro s hs
    obtain ⟨k, hk⟩ := List.mem_iff_getElem?.mp hs
    obtain ⟨i, hi, -, hsi⟩ := hplace hk
    rw [hc.unit hr hsi, if_neg hi]
  · simp only [List.forall_mem_append, List.forall_mem_singleton]
    constructor
    · intro d hd k hk s hs
      obtain ⟨i, -, hlt, hsi⟩ := hplace hs
      exact h.ahead d hd i (Nat.lt_succ_of_lt (hlt hk)) s hsi
    · intro k hk s hs
      obtain ⟨i, hi, -, hsi⟩ := hplace hs
      rw [hc.unit hsi hr, if_neg (Ne.symm hi)]

/-- A phase keeps rows detached. -/
theorem climb (h : Detached 0 t ds) (hc : t.Canonical) {tolerance : ℚ} (h0 : 0 ≤ tolerance)
    (eligible : ℕ) (expired : ℕ → Bool) (left made : ℕ) (lowestIndex : Bool) :
    Detached 0 (Simplex.climb tolerance eligible expired left made lowestIndex t).tableau ds := by
  refine (Simplex.climb_induction (P := fun t' => t'.Canonical ∧ Detached 0 t' ds) ?_
    expired left made lowestIndex ⟨hc, h⟩).2
  intro t' _ col row ⟨hc, hd⟩ _ hrow
  obtain ⟨r, hr, hlt, -⟩ := competes_of_leaving?_eq_some hrow
  exact ⟨hc.pivot hr (lt_of_le_of_lt h0 hlt).ne', hd.pivot (Nat.zero_le row) hc hr⟩

end Detached

/-- The rows that the walk drops are detached from those that it leaves. -/
theorem Canonical.detached_expelArtificials {t₀ : Tableau ℚ} (h : t₀.Canonical) {tolerance : ℚ}
    (h0 : 0 ≤ tolerance) :
    Detached 0 (Simplex.expelArtificials tolerance t₀.rows.length t₀).1
      (Simplex.dropped tolerance t₀.rows.length t₀) :=
  (Simplex.expelArtificials_induction
    (P := fun count t ds _ => Expelling t₀ tolerance count t ds ∧ Detached count t ds)
    (fun _ _ _ _ h hs => ⟨h.1.skip hs, h.2.mono⟩)
    (fun _ _ _ _ _ _ h hr _ hcol =>
      ⟨h.1.pivot h0 hr hcol, h.2.mono.pivot le_rfl h.1.canonical hr⟩)
    (fun _ _ _ _ _ h hr ha hcol => ⟨h.1.drop h0 hr hcol, h.2.drop h.1.canonical hr ha⟩)
    _ t₀ [] [] ⟨Expelling.start h, Detached.start _ t₀⟩).2

/-! ## Restoring the dropped rows -/

/-- The values of `x`, except that the basic variable of each row in `ds` takes up the gap of its row. -/
def restore (ds : List (BasicRow ℚ)) (x : ℕ → ℚ) : ℕ → ℚ :=
  ds.foldr (fun d y j => y j + if j = d.basic then -d.equation.gap x else 0) x

theorem gap_restore_cons (e : Equation ℚ) (d : BasicRow ℚ) (ds : List (BasicRow ℚ)) (x : ℕ → ℚ) :
    e.gap (restore (d :: ds) x) = e.gap (restore ds x) - e.entry d.basic * d.equation.gap x := by
  show e.gap (fun j => restore ds x j + _) = _
  rw [Equation.gap_add, Equation.lhs_single]
  ring

/-- A row without their basic variables does not notice the restored rows. -/
theorem gap_restore_of_clear {ds : List (BasicRow ℚ)} {e : Equation ℚ}
    (h : ∀ d ∈ ds, e.entry d.basic = 0) (x : ℕ → ℚ) : e.gap (restore ds x) = e.gap x := by
  induction ds with
  | nil => rfl
  | cons d ds ih =>
    rw [gap_restore_cons, h d List.mem_cons_self, zero_mul, sub_zero,
      ih fun d' hd' => h d' (List.mem_cons_of_mem _ hd')]

/-- Detached rows hold once they are restored. -/
theorem gap_restore_eq_zero {ds : List (BasicRow ℚ)} (hone : ∀ d ∈ ds, d.equation.entry d.basic = 1)
    (hpair : ds.Pairwise fun d d' => d'.equation.entry d.basic = 0 ∧ d.equation.entry d'.basic = 0)
    (x : ℕ → ℚ) : ∀ d ∈ ds, d.equation.gap (restore ds x) = 0 := by
  induction ds with
  | nil => simp
  | cons d ds ih =>
    rw [List.pairwise_cons] at hpair
    intro d' hd'
    rw [gap_restore_cons]
    rcases List.mem_cons.mp hd' with rfl | hd'
    · rw [gap_restore_of_clear fun s hs => (hpair.1 s hs).2, hone _ List.mem_cons_self]
      ring
    · rw [(hpair.1 d' hd').1, zero_mul, sub_zero]
      exact ih (fun s hs => hone s (List.mem_cons_of_mem _ hs)) hpair.2 d' hd'

/-- Other columns keep their values. -/
theorem restore_of_ne {ds : List (BasicRow ℚ)} {j : ℕ} (h : ∀ d ∈ ds, d.basic ≠ j) (x : ℕ → ℚ) :
    restore ds x j = x j := by
  induction ds with
  | nil => rfl
  | cons d ds ih =>
    show restore ds x j + _ = _
    rw [if_neg (Ne.symm (h d List.mem_cons_self)), add_zero,
      ih fun d' hd' => h d' (List.mem_cons_of_mem _ hd')]

/-- The basic variable of a detached row takes up its gap. -/
theorem restore_of_mem {ds : List (BasicRow ℚ)} (hone : ∀ d ∈ ds, d.equation.entry d.basic = 1)
    (hpair : ds.Pairwise fun d d' => d'.equation.entry d.basic = 0 ∧ d.equation.entry d'.basic = 0)
    (x : ℕ → ℚ) : ∀ d ∈ ds, restore ds x d.basic = x d.basic - d.equation.gap x := by
  induction ds with
  | nil => simp
  | cons d ds ih =>
    rw [List.pairwise_cons] at hpair
    -- no later row has the basic variable of this one
    have hne : ∀ s ∈ ds, s.basic ≠ d.basic := by
      intro s hs heq
      have hzero := (hpair.1 s hs).1
      rw [← heq, hone s (List.mem_cons_of_mem _ hs)] at hzero
      exact one_ne_zero hzero
    intro d' hd'
    show restore ds x d'.basic + _ = _
    rcases List.mem_cons.mp hd' with rfl | hd'
    · rw [restore_of_ne hne, if_pos rfl, sub_eq_add_neg]
    · rw [if_neg (hne d' hd'), add_zero]
      exact ih (fun s hs => hone s (List.mem_cons_of_mem _ hs)) hpair.2 d' hd'

end LinearProgram.Tableau
