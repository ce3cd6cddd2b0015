import Mathlib
import LinearProgram.Proofs.Simplex.Equation

/-!
# Canonical tableaux

A tableau is canonical when the columns of its basic variables are unit columns. A pivot on a
coefficient that is not zero keeps it canonical and keeps the solutions of its rows: nothing here asks
how the pivot was chosen, so that the same lemmas serve both phases, the removal of artificial variables
and every tolerance.
-/

namespace LinearProgram.Tableau

/-! ## Shape

These facts hold for every arithmetic. -/

section Shape

variable {K : Type} [Scalar K] {t : Tableau K} {row col : ℕ}

/-- Every equation has one coefficient for each column, and every basic variable is a column. -/
structure Shaped (t : Tableau K) : Prop where
  width : ∀ r ∈ t.rows, r.equation.coefficients.length = t.numColumns
  width_objective : t.objective.coefficients.length = t.numColumns
  basic_lt : ∀ r ∈ t.rows, r.basic < t.numColumns

/-- The row that a pivot puts in the place of the row `s` in position `k`. -/
def pivoted (col row : ℕ) (r : BasicRow K) (k : ℕ) (s : BasicRow K) : BasicRow K :=
  if k = row then ⟨col, r.equation.divide (r.equation.entry col)⟩
  else { s with equation := s.equation.eliminate col (r.equation.divide (r.equation.entry col)) }

@[simp]
theorem numVariables_pivot : (t.pivot row col).numVariables = t.numVariables := by
  unfold pivot
  split <;> rfl

@[simp]
theorem firstArtificial_pivot : (t.pivot row col).firstArtificial = t.firstArtificial := by
  unfold pivot firstArtificial
  split <;> rfl

@[simp]
theorem numColumns_pivot : (t.pivot row col).numColumns = t.numColumns := by
  unfold pivot numColumns
  split <;> rfl

theorem getElem?_rows_pivot {r : BasicRow K} (hr : t.rows[row]? = some r) (k : ℕ) :
    (t.pivot row col).rows[k]? = t.rows[k]?.map (pivoted col row r k) := by
  simp only [pivot, hr, List.getElem?_mapIdx]
  rfl

theorem objective_pivot {r : BasicRow K} (hr : t.rows[row]? = some r) :
    (t.pivot row col).objective =
      t.objective.eliminate col (r.equation.divide (r.equation.entry col)) := by
  simp only [pivot, hr]

/-- A row of the tableau after a pivot comes from a row before it. -/
theorem mem_rows_pivot {r s' : BasicRow K} (hr : t.rows[row]? = some r)
    (hs' : s' ∈ (t.pivot row col).rows) :
    ∃ k s, t.rows[k]? = some s ∧ s' = pivoted col row r k s := by
  obtain ⟨k, hk⟩ := List.mem_iff_getElem?.mp hs'
  rw [getElem?_rows_pivot hr, Option.map_eq_some_iff] at hk
  obtain ⟨s, hs, h⟩ := hk
  exact ⟨k, s, hs, h.symm⟩

theorem Shaped.pivot (h : t.Shaped) (hcol : col < t.numColumns) : (t.pivot row col).Shaped := by
  cases hr : t.rows[row]? with
  | none =>
    have ht : t.pivot row col = t := by simp only [Tableau.pivot, hr]
    rwa [ht]
  | some r =>
    have hwr := h.width r (List.mem_of_getElem? hr)
    have hdiv : (r.equation.divide (r.equation.entry col)).coefficients.length = t.numColumns := by
      rw [Equation.length_divide, hwr]
    refine ⟨?_, ?_, ?_⟩
    · intro s' hs'
      obtain ⟨k, s, hs, rfl⟩ := mem_rows_pivot hr hs'
      have hws := h.width s (List.mem_of_getElem? hs)
      rw [numColumns_pivot]
      unfold pivoted
      split
      · exact hdiv
      · rw [Equation.length_eliminate (hdiv.trans hws.symm), hws]
    · rw [objective_pivot hr, numColumns_pivot,
        Equation.length_eliminate (hdiv.trans h.width_objective.symm), h.width_objective]
    · intro s' hs'
      obtain ⟨k, s, hs, rfl⟩ := mem_rows_pivot hr hs'
      rw [numColumns_pivot]
      unfold pivoted
      split
      · exact hcol
      · exact h.basic_lt s (List.mem_of_getElem? hs)

end Shape

/-! ## Solutions and unit columns -/

variable {t : Tableau ℚ} {row col : ℕ}

/-- Every row holds as an equation. -/
def Solves (t : Tableau ℚ) (x : ℕ → ℚ) : Prop :=
  ∀ r ∈ t.rows, r.equation.gap x = 0

/-- The basic variable of a row has coefficient one there and zero in every other row. -/
structure Canonical (t : Tableau ℚ) : Prop extends t.Shaped where
  unit : ∀ {i k : ℕ} {r s : BasicRow ℚ}, t.rows[i]? = some r → t.rows[k]? = some s →
    s.equation.entry r.basic = if k = i then 1 else 0

/-- The basic variables have reduced cost zero. -/
def Priced (t : Tableau ℚ) : Prop :=
  ∀ r ∈ t.rows, t.objective.entry r.basic = 0

/-- No right-hand side is negative, so that the basic solution is not either. -/
def Feasible (t : Tableau ℚ) : Prop :=
  ∀ r ∈ t.rows, 0 ≤ r.equation.rhs

namespace Canonical

theorem entry_basic (h : t.Canonical) {r : BasicRow ℚ} (hr : r ∈ t.rows) :
    r.equation.entry r.basic = 1 := by
  obtain ⟨i, hi⟩ := List.mem_iff_getElem?.mp hr
  rw [h.unit hi hi, if_pos rfl]

/-- Two rows with the same basic variable are in the same place. -/
theorem index_eq_of_basic_eq (h : t.Canonical) {i k : ℕ} {r s : BasicRow ℚ}
    (hr : t.rows[i]? = some r) (hs : t.rows[k]? = some s) (hb : r.basic = s.basic) : i = k := by
  have h1 := h.unit hs hs
  rw [if_pos rfl, ← hb, h.unit hr hs] at h1
  by_contra hne
  rw [if_neg (Ne.symm hne)] at h1
  exact zero_ne_one h1

theorem eq_of_basic_eq (h : t.Canonical) {r s : BasicRow ℚ} (hr : r ∈ t.rows) (hs : s ∈ t.rows)
    (hb : r.basic = s.basic) : r = s := by
  obtain ⟨i, hi⟩ := List.mem_iff_getElem?.mp hr
  obtain ⟨k, hk⟩ := List.mem_iff_getElem?.mp hs
  have hik := h.index_eq_of_basic_eq hi hk hb
  subst hik
  exact Option.some.inj (hi.symm.trans hk)

/-- The basic variable of a row is absent from every other row. -/
theorem entry_basic_of_ne (h : t.Canonical) {r s : BasicRow ℚ} (hr : r ∈ t.rows) (hs : s ∈ t.rows)
    (hne : r ≠ s) : s.equation.entry r.basic = 0 := by
  obtain ⟨i, hi⟩ := List.mem_iff_getElem?.mp hr
  obtain ⟨k, hk⟩ := List.mem_iff_getElem?.mp hs
  rw [h.unit hi hk, if_neg]
  rintro rfl
  exact hne (Option.some.inj (hi.symm.trans hk))

theorem nodup_basic (h : t.Canonical) : (t.rows.map BasicRow.basic).Nodup := by
  rw [List.nodup_iff_getElem?_ne_getElem?]
  intro i k hik hk heq
  rw [List.length_map] at hk
  have hi : i < t.rows.length := hik.trans hk
  simp only [List.getElem?_map, List.getElem?_eq_getElem hi, List.getElem?_eq_getElem hk,
    Option.map_some, Option.some.injEq] at heq
  exact hik.ne (h.index_eq_of_basic_eq (List.getElem?_eq_getElem hi)
    (List.getElem?_eq_getElem hk) heq)

end Canonical

/-! ## Pivots -/

section Pivot

variable (h : t.Canonical) {r : BasicRow ℚ} (hr : t.rows[row]? = some r)
include h hr

/-- Every row of a canonical tableau is as wide as the row of a pivot. -/
theorem Canonical.width_divide {s : BasicRow ℚ} (hs : s ∈ t.rows) (p : ℚ) :
    (r.equation.divide p).coefficients.length = s.equation.coefficients.length := by
  rw [Equation.length_divide, h.width r (List.mem_of_getElem? hr), h.width s hs]

theorem Canonical.width_divide_objective (p : ℚ) :
    (r.equation.divide p).coefficients.length = t.objective.coefficients.length := by
  rw [Equation.length_divide, h.width r (List.mem_of_getElem? hr), h.width_objective]

theorem entry_pivoted_of_ne {k : ℕ} {s : BasicRow ℚ} (hs : t.rows[k]? = some s) (hk : k ≠ row)
    (j : ℕ) : (pivoted col row r k s).equation.entry j =
      s.equation.entry j - s.equation.entry col * (r.equation.entry j / r.equation.entry col) := by
  rw [pivoted, if_neg hk]
  rw [Equation.entry_eliminate (h.width_divide hr (List.mem_of_getElem? hs) _), Equation.entry_divide]

omit h hr in
theorem rhs_pivoted_of_ne {k : ℕ} {s : BasicRow ℚ} (hk : k ≠ row) :
    (pivoted col row r k s).equation.rhs =
      s.equation.rhs - s.equation.entry col * (r.equation.rhs / r.equation.entry col) := by
  rw [pivoted, if_neg hk, Equation.rhs_eliminate, Equation.rhs_divide]

theorem entry_objective_pivot (j : ℕ) : (t.pivot row col).objective.entry j =
    t.objective.entry j - t.objective.entry col * (r.equation.entry j / r.equation.entry col) := by
  rw [objective_pivot hr, Equation.entry_eliminate (h.width_divide_objective hr _),
    Equation.entry_divide]

variable (hp : r.equation.entry col ≠ 0)
include hp

theorem Canonical.col_lt : col < t.numColumns := by
  have hlt := Equation.lt_length_of_entry_ne_zero hp
  rwa [h.width r (List.mem_of_getElem? hr)] at hlt

theorem Canonical.pivot : (t.pivot row col).Canonical := by
  refine ⟨h.toShaped.pivot (h.col_lt hr hp), ?_⟩
  intro i k r' s' hi hk
  rw [getElem?_rows_pivot hr, Option.map_eq_some_iff] at hi hk
  obtain ⟨r₀, hr₀, rfl⟩ := hi
  obtain ⟨s₀, hs₀, rfl⟩ := hk
  by_cases hirow : i = row
  · subst hirow
    have hb : (pivoted col i r i r₀).basic = col := by rw [pivoted, if_pos rfl]
    rw [hb]
    by_cases hki : k = i
    · rw [if_pos hki, pivoted, if_pos hki, Equation.entry_divide, div_self hp]
    · rw [if_neg hki, entry_pivoted_of_ne h hr hs₀ hki, div_self hp, mul_one, sub_self]
  · have hb : (pivoted col row r i r₀).basic = r₀.basic := by rw [pivoted, if_neg hirow]
    -- the row of the pivot does not contain the other basic variables
    have hzero : r.equation.entry r₀.basic = 0 := by
      rw [h.unit hr₀ hr, if_neg (Ne.symm hirow)]
    rw [hb]
    by_cases hkrow : k = row
    · rw [pivoted, if_pos hkrow, Equation.entry_divide, hzero, zero_div,
        if_neg (by rintro rfl; exact hirow hkrow)]
    · rw [entry_pivoted_of_ne h hr hs₀ hkrow, hzero, zero_div, mul_zero, sub_zero, h.unit hr₀ hs₀]

theorem Priced.pivot (hpriced : t.Priced) : (t.pivot row col).Priced := by
  intro s' hs'
  obtain ⟨k, s, hs, rfl⟩ := mem_rows_pivot hr hs'
  rw [entry_objective_pivot h hr]
  by_cases hk : k = row
  · have hb : (pivoted col row r k s).basic = col := by rw [pivoted, if_pos hk]
    rw [hb, div_self hp, mul_one, sub_self]
  · have hb : (pivoted col row r k s).basic = s.basic := by rw [pivoted, if_neg hk]
    rw [hb, hpriced s (List.mem_of_getElem? hs), h.unit hs hr, if_neg (Ne.symm hk), zero_div,
      mul_zero, sub_zero]

/-- The gap of a row after the pivot is a combination of gaps before it, and conversely. -/
theorem solves_pivot (x : ℕ → ℚ) : (t.pivot row col).Solves x ↔ t.Solves x := by
  have hgap (k : ℕ) (s : BasicRow ℚ) (hs : t.rows[k]? = some s) (hk : k ≠ row) :
      (pivoted col row r k s).equation.gap x =
        s.equation.gap x - s.equation.entry col * (r.equation.gap x / r.equation.entry col) := by
    rw [pivoted, if_neg hk,
      Equation.gap_eliminate (h.width_divide hr (List.mem_of_getElem? hs) _), Equation.gap_divide]
  have hgap_row : (pivoted col row r row r).equation.gap x =
      r.equation.gap x / r.equation.entry col := by
    rw [pivoted, if_pos rfl, Equation.gap_divide]
  constructor
  · intro hx
    have hmem {k : ℕ} {s : BasicRow ℚ} (hs : t.rows[k]? = some s) :
        (pivoted col row r k s).equation.gap x = 0 := by
      refine hx _ (List.mem_iff_getElem?.mpr ⟨k, ?_⟩)
      rw [getElem?_rows_pivot hr, hs, Option.map_some]
    have hr0 : r.equation.gap x = 0 := by
      have h0 := hmem hr
      rw [hgap_row, div_eq_zero_iff] at h0
      exact h0.resolve_right hp
    intro s hs
    obtain ⟨k, hk⟩ := List.mem_iff_getElem?.mp hs
    by_cases hkrow : k = row
    · subst hkrow
      rwa [← Option.some.inj (hr.symm.trans hk)]
    · have h0 := hmem hk
      rwa [hgap k s hk hkrow, hr0, zero_div, mul_zero, sub_zero] at h0
  · intro hx s' hs'
    obtain ⟨k, s, hs, rfl⟩ := mem_rows_pivot hr hs'
    have hr0 := hx r (List.mem_of_getElem? hr)
    by_cases hk : k = row
    · subst hk
      rw [← Option.some.inj (hr.symm.trans hs), hgap_row, hr0, zero_div]
    · rw [hgap k s hs hk, hx s (List.mem_of_getElem? hs), hr0, zero_div, mul_zero, sub_zero]

omit hp in
/-- On solutions of the rows the objective keeps its value. -/
theorem gap_objective_pivot {x : ℕ → ℚ} (hx : t.Solves x) :
    (t.pivot row col).objective.gap x = t.objective.gap x := by
  rw [objective_pivot hr, Equation.gap_eliminate (h.width_divide_objective hr _),
    Equation.gap_divide, hx r (List.mem_of_getElem? hr), zero_div, mul_zero, sub_zero]

end Pivot

end LinearProgram.Tableau
