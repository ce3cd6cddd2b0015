import Mathlib
import LinearProgram.Proofs.Simplex.Pricing

/-!
# From the first phase to the second

`expelArtificials` goes through the rows once, from the last to the first. A row with an artificial basic
variable is pivoted to another column or dropped; `expelArtificials_induction` is the invariant of that
walk, and `dropped` lists the rows that it drops. The rows that are left together with the dropped ones
have the solutions of the rows before. Without a tolerance a dropped row says nothing about solutions in
which the artificial variables are zero, so the rows that are left have those solutions by themselves.
-/

namespace LinearProgram.Simplex

section Walk

variable {K : Type} [Scalar K] {tolerance : K} {row : ℕ} {t : Tableau K}

/-- The rows that are dropped on the walk through the first `count` rows. -/
def dropped (tolerance : K) : (count : ℕ) → Tableau K → List (BasicRow K)
  | 0, _ => []
  | row + 1, t =>
    match t.rows[row]? with
    | none => dropped tolerance row t
    | some r =>
      if !t.isArtificial r then dropped tolerance row t
      else match t.replacement? tolerance r.equation with
        | some col => dropped tolerance row (t.pivot row col)
        | none => r :: dropped tolerance row (t.drop row)

/-- A step of the walk that keeps the tableau. -/
theorem expelArtificials_skip (h : ∀ r, t.rows[row]? = some r → t.isArtificial r = false) :
    expelArtificials tolerance (row + 1) t = expelArtificials tolerance row t ∧
      dropped tolerance (row + 1) t = dropped tolerance row t := by
  cases hr : t.rows[row]? with
  | none => constructor <;> simp only [expelArtificials, dropped, hr]
  | some r => constructor <;> simp only [expelArtificials, dropped, hr, h r hr] <;> rfl

theorem expelArtificials_pivot {r : BasicRow K} {col : ℕ} (hr : t.rows[row]? = some r)
    (ha : t.isArtificial r = true) (hcol : t.replacement? tolerance r.equation = some col) :
    expelArtificials tolerance (row + 1) t =
        ((expelArtificials tolerance row (t.pivot row col)).1,
          .expel row col :: (expelArtificials tolerance row (t.pivot row col)).2) ∧
      dropped tolerance (row + 1) t = dropped tolerance row (t.pivot row col) := by
  constructor <;> simp only [expelArtificials, dropped, hr, ha, hcol] <;> rfl

theorem expelArtificials_drop {r : BasicRow K} (hr : t.rows[row]? = some r)
    (ha : t.isArtificial r = true) (hcol : t.replacement? tolerance r.equation = none) :
    expelArtificials tolerance (row + 1) t =
        ((expelArtificials tolerance row (t.drop row)).1,
          .dropRedundant row :: (expelArtificials tolerance row (t.drop row)).2) ∧
      dropped tolerance (row + 1) t = r :: dropped tolerance row (t.drop row) := by
  constructor <;> simp only [expelArtificials, dropped, hr, ha, hcol] <;> rfl

/-- What each step of the walk keeps holds at its end. `P count t ds steps` is said of the tableau `t` with
`count` rows still to be looked at, the rows `ds` dropped and the steps `steps` made. -/
theorem expelArtificials_induction {P : ℕ → Tableau K → List (BasicRow K) → List Step → Prop}
    (hskip : ∀ row t ds steps, P (row + 1) t ds steps →
      (∀ r, t.rows[row]? = some r → t.isArtificial r = false) → P row t ds steps)
    (hpivot : ∀ row t ds steps r col, P (row + 1) t ds steps → t.rows[row]? = some r →
      t.isArtificial r = true → t.replacement? tolerance r.equation = some col →
        P row (t.pivot row col) ds (steps ++ [.expel row col]))
    (hdrop : ∀ row t ds steps r, P (row + 1) t ds steps → t.rows[row]? = some r →
      t.isArtificial r = true → t.replacement? tolerance r.equation = none →
        P row (t.drop row) (ds ++ [r]) (steps ++ [.dropRedundant row]))
    (count : ℕ) (t : Tableau K) (ds : List (BasicRow K)) (steps : List Step) (h : P count t ds steps) :
    P 0 (expelArtificials tolerance count t).1 (ds ++ dropped tolerance count t)
      (steps ++ (expelArtificials tolerance count t).2) := by
  induction count generalizing t ds steps with
  | zero =>
    rw [dropped, expelArtificials, List.append_nil, List.append_nil]
    exact h
  | succ row ih =>
    by_cases hs : ∀ r, t.rows[row]? = some r → t.isArtificial r = false
    · rw [(expelArtificials_skip hs).1, (expelArtificials_skip hs).2]
      exact ih t ds steps (hskip row t ds steps h hs)
    · push Not at hs
      obtain ⟨r, hr, ha⟩ := hs
      have ha' : t.isArtificial r = true := by simpa using ha
      cases hcol : t.replacement? tolerance r.equation with
      | some col =>
        rw [(expelArtificials_pivot hr ha' hcol).1, (expelArtificials_pivot hr ha' hcol).2,
          List.append_cons]
        exact ih _ ds _ (hpivot row t ds steps r col h hr ha' hcol)
      | none =>
        rw [(expelArtificials_drop hr ha' hcol).1, (expelArtificials_drop hr ha' hcol).2,
          List.append_cons ds, List.append_cons steps]
        exact ih _ _ _ (hdrop row t ds steps r h hr ha' hcol)

end Walk

end LinearProgram.Simplex

namespace LinearProgram.Tableau

/-! ## Dropping a row -/

section Drop

variable {t : Tableau ℚ} {row : ℕ}

theorem getElem?_rows_drop (k : ℕ) :
    (t.drop row).rows[k]? = t.rows[if k < row then k else k + 1]? := by
  show (t.rows.eraseIdx row)[k]? = _
  rw [List.getElem?_eraseIdx]
  split <;> rfl

theorem mem_rows_of_mem_drop {r : BasicRow ℚ} (hr : r ∈ (t.drop row).rows) : r ∈ t.rows :=
  List.mem_of_mem_eraseIdx hr

theorem Canonical.drop (h : t.Canonical) : (t.drop row).Canonical where
  width r hr := h.width r (mem_rows_of_mem_drop hr)
  width_objective := h.width_objective
  basic_lt r hr := h.basic_lt r (mem_rows_of_mem_drop hr)
  unit {i k r s} hr hs := by
    rw [getElem?_rows_drop] at hr hs
    rw [h.unit hr hs]
    refine if_congr ?_ rfl rfl
    split <;> split <;> omega

/-- The rows of a tableau hold exactly when those that are left hold and the dropped one does. -/
theorem solves_drop {r : BasicRow ℚ} (hr : t.rows[row]? = some r) (x : ℕ → ℚ) :
    t.Solves x ↔ (t.drop row).Solves x ∧ r.equation.gap x = 0 := by
  constructor
  · intro hx
    exact ⟨fun s hs => hx s (mem_rows_of_mem_drop hs), hx r (List.mem_of_getElem? hr)⟩
  · rintro ⟨hx, hrx⟩ s hs
    obtain ⟨k, hk⟩ := List.mem_iff_getElem?.mp hs
    by_cases hkr : k = row
    · rw [hkr, hr] at hk
      rwa [← Option.some.inj hk]
    · exact hx s (List.mem_eraseIdx_iff_getElem?.mpr ⟨k, hkr, hk⟩)

end Drop

/-! ## The walk at any tolerance -/

theorem isArtificial_eq_true {t : Tableau ℚ} {r : BasicRow ℚ} :
    t.isArtificial r = true ↔ t.firstArtificial ≤ r.basic :=
  decide_eq_true_iff

variable {t₀ : Tableau ℚ} {tolerance : ℚ}

/-- The column found in place of an artificial variable. -/
theorem replacement?_eq_some {t : Tableau ℚ} {e : Equation ℚ} {col : ℕ}
    (h : t.replacement? tolerance e = some col) :
    col < t.firstArtificial ∧ tolerance < |e.entry col| := by
  obtain ⟨hlt, hcol, -⟩ := List.findIdx?_eq_some_iff_getElem.mp h
  rw [List.length_take, lt_min_iff] at hlt
  refine ⟨hlt.1, ?_⟩
  rw [Scalar.lt_rat, Scalar.abs_rat, List.getElem_take] at hcol
  rwa [Equation.entry_eq_getD, List.getD_eq_getElem _ _ hlt.2]

/-- Where no column is found, every coefficient before the artificial columns is within the tolerance
of zero. -/
theorem abs_entry_le_of_replacement?_eq_none {t : Tableau ℚ} {e : Equation ℚ} (h0 : 0 ≤ tolerance)
    (h : t.replacement? tolerance e = none) {j : ℕ} (hj : j < t.firstArtificial) :
    |e.entry j| ≤ tolerance := by
  rw [Equation.entry_eq_getD]
  by_cases hlen : j < e.coefficients.length
  · rw [List.getD_eq_getElem _ _ hlen, ← Scalar.abs_rat, ← Scalar.lt_rat_eq_false]
    exact List.findIdx?_eq_none_iff.mp h _ (List.mem_take_iff_getElem.mpr ⟨j, by omega, rfl⟩)
  · rw [List.getD_eq_default _ _ (not_lt.mp hlen), abs_zero]
    exact h0

/-- A tableau on the walk from `t₀`: `count` rows are still to be looked at, `ds` are dropped. -/
structure Expelling (t₀ : Tableau ℚ) (tolerance : ℚ) (count : ℕ) (t : Tableau ℚ)
    (ds : List (BasicRow ℚ)) : Prop where
  canonical : t.Canonical
  numVariables : t.numVariables = t₀.numVariables
  firstArtificial : t.firstArtificial = t₀.firstArtificial
  numColumns : t.numColumns = t₀.numColumns
  solves_iff : ∀ x, t₀.Solves x ↔ t.Solves x ∧ ∀ d ∈ ds, d.equation.gap x = 0
  gap_objective : ∀ x, t₀.Solves x → t.objective.gap x = t₀.objective.gap x
  seen : ∀ k r, count ≤ k → t.rows[k]? = some r → r.basic < t.firstArtificial
  width : ∀ d ∈ ds, d.equation.coefficients.length = t₀.numColumns
  small : ∀ d ∈ ds, ∀ j < t₀.firstArtificial, |d.equation.entry j| ≤ tolerance

namespace Expelling

variable {row : ℕ} {t : Tableau ℚ} {ds : List (BasicRow ℚ)}

theorem start (h : t₀.Canonical) : Expelling t₀ tolerance t₀.rows.length t₀ [] where
  canonical := h
  numVariables := rfl
  firstArtificial := rfl
  numColumns := rfl
  solves_iff _ := by simp
  gap_objective _ _ := rfl
  seen k r hk hr := by
    rw [List.getElem?_eq_none hk] at hr
    exact absurd hr (by simp)
  width := by simp
  small := by simp

theorem skip (h : Expelling t₀ tolerance (row + 1) t ds)
    (hs : ∀ r, t.rows[row]? = some r → t.isArtificial r = false) :
    Expelling t₀ tolerance row t ds where
  __ := h
  seen k r hk hr := by
    rcases Nat.eq_or_lt_of_le hk with rfl | hlt
    · simpa [isArtificial] using hs r hr
    · exact h.seen k r hlt hr

theorem pivot (h : Expelling t₀ tolerance (row + 1) t ds) (h0 : 0 ≤ tolerance) {r : BasicRow ℚ}
    {col : ℕ} (hr : t.rows[row]? = some r) (hcol : t.replacement? tolerance r.equation = some col) :
    Expelling t₀ tolerance row (t.pivot row col) ds := by
  obtain ⟨hlt, habs⟩ := replacement?_eq_some hcol
  have hp : r.equation.entry col ≠ 0 := abs_pos.mp (lt_of_le_of_lt h0 habs)
  refine
    { canonical := h.canonical.pivot hr hp
      numVariables := numVariables_pivot.trans h.numVariables
      firstArtificial := firstArtificial_pivot.trans h.firstArtificial
      numColumns := numColumns_pivot.trans h.numColumns
      solves_iff := fun x => ?_
      gap_objective := fun x hx => ?_
      seen := fun k s' hk hs' => ?_
      width := h.width
      small := h.small }
  · rw [solves_pivot h.canonical hr hp]
    exact h.solves_iff x
  · rw [gap_objective_pivot h.canonical hr ((h.solves_iff x).mp hx).1]
    exact h.gap_objective x hx
  · rw [getElem?_rows_pivot hr, Option.map_eq_some_iff] at hs'
    obtain ⟨s, hs, rfl⟩ := hs'
    rw [firstArtificial_pivot, pivoted]
    split
    · exact hlt
    · next hne => exact h.seen k s (by omega) hs

theorem drop (h : Expelling t₀ tolerance (row + 1) t ds) (h0 : 0 ≤ tolerance) {r : BasicRow ℚ}
    (hr : t.rows[row]? = some r) (hcol : t.replacement? tolerance r.equation = none) :
    Expelling t₀ tolerance row (t.drop row) (ds ++ [r]) where
  canonical := h.canonical.drop
  numVariables := h.numVariables
  firstArtificial := h.firstArtificial
  numColumns := h.numColumns
  solves_iff x := by
    rw [h.solves_iff, solves_drop hr]
    simp only [List.forall_mem_append, List.forall_mem_singleton]
    exact ⟨fun ⟨⟨h1, h2⟩, h3⟩ => ⟨h1, h3, h2⟩, fun ⟨h1, h3, h2⟩ => ⟨⟨h1, h2⟩, h3⟩⟩
  gap_objective := h.gap_objective
  seen k s hk hs := by
    rw [getElem?_rows_drop, if_neg (by omega)] at hs
    exact h.seen (k + 1) s (by omega) hs
  width d hd := by
    rcases List.mem_append.mp hd with hd | hd
    · exact h.width d hd
    · rw [List.mem_singleton.mp hd, h.canonical.width r (List.mem_of_getElem? hr), h.numColumns]
  small d hd j hj := by
    rcases List.mem_append.mp hd with hd | hd
    · exact h.small d hd j hj
    · rw [List.mem_singleton.mp hd]
      exact abs_entry_le_of_replacement?_eq_none h0 hcol (h.firstArtificial ▸ hj)

/-- No artificial basic variable is left at the end. -/
theorem structural (h : Expelling t₀ tolerance 0 t ds) : t.Structural := by
  intro r hr
  obtain ⟨k, hk⟩ := List.mem_iff_getElem?.mp hr
  exact h.seen k r (Nat.zero_le k) hk

end Expelling

/-- The tableau after the walk, with the rows that it dropped. -/
theorem expelling_expelArtificials (h : t₀.Canonical) (h0 : 0 ≤ tolerance) :
    Expelling t₀ tolerance 0 (Simplex.expelArtificials tolerance t₀.rows.length t₀).1
      (Simplex.dropped tolerance t₀.rows.length t₀) :=
  Simplex.expelArtificials_induction (P := fun count t ds _ => Expelling t₀ tolerance count t ds)
    (fun _ _ _ _ h hs => h.skip hs)
    (fun _ _ _ _ _ _ h hr _ hcol => h.pivot h0 hr hcol)
    (fun _ _ _ _ _ h hr _ hcol => h.drop h0 hr hcol)
    _ t₀ [] [] (Expelling.start h)

/-! ## The walk without a tolerance -/

/-- The artificial variables that are still in the basis are zero in the basic solution. -/
def Vanishing (t : Tableau ℚ) : Prop :=
  ∀ r ∈ t.rows, t.firstArtificial ≤ r.basic → r.equation.rhs = 0

theorem artificialsVanish_iff {t : Tableau ℚ} : t.artificialsVanish 0 = true ↔ t.Vanishing := by
  simp only [artificialsVanish, List.all_eq_true, List.mem_filter, isArtificial, decide_eq_true_iff,
    Scalar.le_rat, Scalar.abs_rat, abs_nonpos_iff, Vanishing]
  exact ⟨fun h r hr ha => h r ⟨hr, ha⟩, fun h r hr => h r hr.1 hr.2⟩

/-- A pivot on a row whose right-hand side is zero changes no right-hand side. -/
theorem rhs_pivoted_of_rhs_eq_zero {r s : BasicRow ℚ} {row col k : ℕ} {t : Tableau ℚ}
    (hr : t.rows[row]? = some r) (hs : t.rows[k]? = some s) (h0 : r.equation.rhs = 0) :
    (pivoted col row r k s).equation.rhs = s.equation.rhs := by
  by_cases hk : k = row
  · rw [hk, hr] at hs
    rw [pivoted, if_pos hk, ← Option.some.inj hs]
    show r.equation.rhs / _ = _
    rw [h0, zero_div]
  · rw [rhs_pivoted_of_ne hk, h0, zero_div, mul_zero, sub_zero]

/-- The right-hand sides of the rows. -/
def rightHandSides (t : Tableau ℚ) : List ℚ :=
  t.rows.map fun r => r.equation.rhs

theorem rightHandSides_pivot {r : BasicRow ℚ} {row col : ℕ} {t : Tableau ℚ}
    (hr : t.rows[row]? = some r) (h0 : r.equation.rhs = 0) :
    (t.pivot row col).rightHandSides = t.rightHandSides := by
  refine List.ext_getElem? fun k => ?_
  rw [rightHandSides, rightHandSides, List.getElem?_map, List.getElem?_map, getElem?_rows_pivot hr,
    Option.map_map]
  refine Option.map_congr fun s hs => ?_
  exact rhs_pivoted_of_rhs_eq_zero hr hs h0

theorem rightHandSides_drop (t : Tableau ℚ) (row : ℕ) :
    (t.drop row).rightHandSides = t.rightHandSides.eraseIdx row :=
  (List.eraseIdx_map ..).symm

section Vanishing

variable {t : Tableau ℚ} (hv : t.Vanishing) {row : ℕ} {r : BasicRow ℚ} (hr : t.rows[row]? = some r)
  (ha : t.isArtificial r = true)
include hv

theorem Vanishing.drop : (t.drop row).Vanishing :=
  fun s hs => hv s (mem_rows_of_mem_drop hs)

include hr ha

/-- A row that the walk pivots or drops has right-hand side zero. -/
theorem Vanishing.rhs_eq_zero : r.equation.rhs = 0 :=
  hv r (List.mem_of_getElem? hr) (isArtificial_eq_true.mp ha)

theorem Vanishing.pivot (col : ℕ) : (t.pivot row col).Vanishing := by
  intro s' hs' ha'
  obtain ⟨k, s, hs, rfl⟩ := mem_rows_pivot hr hs'
  rw [rhs_pivoted_of_rhs_eq_zero hr hs (hv.rhs_eq_zero hr ha)]
  rw [firstArtificial_pivot, pivoted] at ha'
  split at ha'
  · next hk =>
    rw [hk] at hs
    exact hv.rhs_eq_zero hs (by rwa [← Option.some.inj (hr.symm.trans hs)])
  · exact hv s (List.mem_of_getElem? hs) ha'

end Vanishing

/-- What the walk keeps when no tolerance blurs it: the rows that are pivoted or dropped have
right-hand side zero. -/
private def Keeps (t : Tableau ℚ) (ds : List (BasicRow ℚ)) : Prop :=
  (t.Primal ∧ t.Vanishing) ∧ ∀ d ∈ ds, d.equation.rhs = 0

private theorem Keeps.pivot {t : Tableau ℚ} {ds : List (BasicRow ℚ)} (h : Keeps t ds) {row col : ℕ}
    {r : BasicRow ℚ} (hr : t.rows[row]? = some r) (ha : t.isArtificial r = true)
    (hcol : t.replacement? 0 r.equation = some col) : Keeps (t.pivot row col) ds := by
  obtain ⟨⟨hprimal, hvanish⟩, hds⟩ := h
  have hp : r.equation.entry col ≠ 0 := abs_pos.mp (replacement?_eq_some hcol).2
  refine ⟨⟨⟨hprimal.toCanonical.pivot hr hp, hprimal.priced.pivot hprimal.toCanonical hr hp, ?_⟩,
    hvanish.pivot hr ha col⟩, hds⟩
  intro s' hs'
  obtain ⟨k, s, hs, rfl⟩ := mem_rows_pivot hr hs'
  rw [rhs_pivoted_of_rhs_eq_zero hr hs (hvanish.rhs_eq_zero hr ha)]
  exact hprimal.feasible s (List.mem_of_getElem? hs)

private theorem Keeps.drop {t : Tableau ℚ} {ds : List (BasicRow ℚ)} (h : Keeps t ds) {row : ℕ}
    {r : BasicRow ℚ} (hr : t.rows[row]? = some r) (ha : t.isArtificial r = true) :
    Keeps (t.drop row) (ds ++ [r]) := by
  obtain ⟨⟨hprimal, hvanish⟩, hds⟩ := h
  refine ⟨⟨⟨hprimal.toCanonical.drop, ?_, ?_⟩, hvanish.drop⟩, ?_⟩
  · exact fun s hs => hprimal.priced s (mem_rows_of_mem_drop hs)
  · exact fun s hs => hprimal.feasible s (mem_rows_of_mem_drop hs)
  · intro d hd
    rcases List.mem_append.mp hd with hd | hd
    · exact hds d hd
    · rw [List.mem_singleton.mp hd]
      exact hvanish.rhs_eq_zero hr ha

private theorem keeps_expelArtificials (h : t₀.Primal) (hv : t₀.Vanishing) :
    Keeps (Simplex.expelArtificials 0 t₀.rows.length t₀).1
      (Simplex.dropped 0 t₀.rows.length t₀) :=
  Simplex.expelArtificials_induction (P := fun _ t ds _ => Keeps t ds)
    (fun _ _ _ _ h _ => h)
    (fun _ _ _ _ _ _ h hr ha hcol => h.pivot hr ha hcol)
    (fun _ _ _ _ _ h hr ha _ => h.drop hr ha)
    _ t₀ [] [] ⟨⟨h, hv⟩, by simp⟩

/-- A row that is dropped is a zero equation but for its artificial variables. -/
theorem Primal.dropped_eq_zero (h : t₀.Primal) (hv : t₀.Vanishing) {d : BasicRow ℚ}
    (hd : d ∈ Simplex.dropped 0 t₀.rows.length t₀) :
    d.equation.rhs = 0 ∧ ∀ j < t₀.firstArtificial, d.equation.entry j = 0 :=
  ⟨(keeps_expelArtificials h hv).2 d hd, fun j hj =>
    abs_nonpos_iff.mp ((expelling_expelArtificials h.toCanonical le_rfl).small d hd j hj)⟩

/-- The artificial variables are zero. -/
def Unaided (t : Tableau ℚ) (x : ℕ → ℚ) : Prop :=
  ∀ j, t.firstArtificial ≤ j → j < t.numColumns → x j = 0

/-- What the second phase starts from, when the artificial variables have vanished: on solutions in which
they are zero `t` is the same as `t₀`. -/
structure Ready (t₀ t : Tableau ℚ) : Prop where
  primal : t.Primal
  structural : t.Structural
  numVariables : t.numVariables = t₀.numVariables
  firstArtificial : t.firstArtificial = t₀.firstArtificial
  numColumns : t.numColumns = t₀.numColumns
  solves_iff : ∀ x, t₀.Unaided x → (t.Solves x ↔ t₀.Solves x)
  gap_objective : ∀ x, t₀.Unaided x → t₀.Solves x → t.objective.gap x = t₀.objective.gap x

/-- Expelling artificial variables that vanish keeps the solutions without them: the rows dropped are
redundant. -/
theorem Primal.ready_expelArtificials (h : t₀.Primal) (hv : t₀.Vanishing) :
    Ready t₀ (Simplex.expelArtificials 0 t₀.rows.length t₀).1 := by
  have hwalk := expelling_expelArtificials h.toCanonical (le_refl (0 : ℚ))
  refine
    { primal := (keeps_expelArtificials h hv).1.1
      structural := hwalk.structural
      numVariables := hwalk.numVariables
      firstArtificial := hwalk.firstArtificial
      numColumns := hwalk.numColumns
      solves_iff := fun x hx => ?_
      gap_objective := fun x _ => hwalk.gap_objective x }
  rw [hwalk.solves_iff]
  refine ⟨fun hsolves => ⟨hsolves, fun d hd => ?_⟩, And.left⟩
  obtain ⟨hrhs, hentry⟩ := h.dropped_eq_zero hv hd
  have hlhs : d.equation.lhs x = 0 := by
    rw [Equation.lhs, dot_eq_sum (hwalk.width d hd).le]
    refine Finset.sum_eq_zero ?_
    intro j hjn
    by_cases hj : j < t₀.firstArtificial
    · rw [← Equation.entry_eq_getD, hentry j hj, zero_mul]
    · rw [hx j (not_lt.mp hj) (Finset.mem_range.mp hjn), mul_zero]
  rw [Equation.gap, hlhs, hrhs, sub_zero]

end LinearProgram.Tableau
