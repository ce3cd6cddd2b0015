import Mathlib
import LinearProgram.Proofs.Simplex.Contest

/-!
# The choice of a pivot

What a step chooses: `entering?` finds a column whose reduced cost is above the tolerance, and `leaving?`
the winner of the contest of rows. Where the reduced costs and the ratios are apart from each other by more
than the tolerance, both choose as they would without one, and without one no right-hand side becomes
negative.
-/

namespace LinearProgram.Tableau

variable {t : Tableau ℚ} {tolerance : ℚ}

/-! ## The entering column -/

/-- The search for the largest cost keeps the largest value so far, and a place where it was seen. -/
private theorem largestCost_fold (tolerance : ℚ) (L : List (ℚ × ℕ)) :
    let best := L.foldl (fun best c => if Scalar.lt best.1 c.1 then (c.1, some c.2) else best)
      (tolerance, none)
    tolerance ≤ best.1 ∧ (∀ c ∈ L, c.1 ≤ best.1) ∧
      match best.2 with
      | none => best.1 = tolerance
      | some j => (best.1, j) ∈ L ∧ tolerance < best.1 := by
  induction L using List.reverseRecOn with
  | nil => exact ⟨le_rfl, by simp, rfl⟩
  | append_singleton L c ih =>
    obtain ⟨hle, hmax, hplace⟩ := ih
    simp only [List.foldl_append, List.foldl_cons, List.foldl_nil]
    split
    · next hlt =>
      rw [Scalar.lt_rat] at hlt
      refine ⟨hle.trans hlt.le, ?_, ?_, lt_of_le_of_lt hle hlt⟩
      · intro d hd
        rcases List.mem_append.mp hd with hd | hd
        · exact (hmax d hd).trans hlt.le
        · rw [List.mem_singleton.mp hd]
      · exact List.mem_append_right _ (List.mem_singleton_self _)
    · next hlt =>
      rw [Scalar.lt_rat, not_lt] at hlt
      refine ⟨hle, ?_, ?_⟩
      · intro d hd
        rcases List.mem_append.mp hd with hd | hd
        · exact hmax d hd
        · rwa [List.mem_singleton.mp hd]
      · split
        · next hnone => rwa [hnone] at hplace
        · next j hj =>
          rw [hj] at hplace
          exact ⟨List.mem_append_left _ hplace.1, hplace.2⟩

theorem largestCost?_eq_none {costs : List ℚ} (h : largestCost? tolerance costs = none) :
    ∀ c ∈ costs, c ≤ tolerance := by
  obtain ⟨-, hmax, hplace⟩ := largestCost_fold tolerance costs.zipIdx
  rw [largestCost?] at h
  rw [h] at hplace
  intro c hc
  obtain ⟨j, hj⟩ := List.mem_iff_getElem?.mp hc
  have hle := hmax (c, j) (List.mem_zipIdx_iff_getElem?.mpr hj)
  exact hle.trans_eq hplace

theorem largestCost?_eq_some {costs : List ℚ} {j : ℕ} (h : largestCost? tolerance costs = some j) :
    ∃ c, costs[j]? = some c ∧ tolerance < c := by
  obtain ⟨-, -, hplace⟩ := largestCost_fold tolerance costs.zipIdx
  rw [largestCost?] at h
  rw [h] at hplace
  exact ⟨_, List.mem_zipIdx_iff_getElem?.mp hplace.1, hplace.2⟩

/-- No eligible column has a reduced cost above the tolerance. -/
theorem entry_le_of_entering?_eq_none {eligible : ℕ} {lowestIndex : Bool} (h0 : 0 ≤ tolerance)
    (h : t.entering? tolerance eligible lowestIndex = none) {j : ℕ} (hj : j < eligible) :
    t.objective.entry j ≤ tolerance := by
  have hall : ∀ c ∈ t.objective.coefficients.take eligible, c ≤ tolerance := by
    unfold entering? at h
    split at h
    · intro c hc
      have hc' := List.findIdx?_eq_none_iff.mp h c hc
      rwa [Scalar.lt_rat_eq_false] at hc'
    · exact largestCost?_eq_none h
  by_cases hlen : j < t.objective.coefficients.length
  · rw [Equation.entry_eq_getD, List.getD_eq_getElem _ _ hlen]
    exact hall _ (List.mem_take_iff_getElem.mpr ⟨j, by omega, rfl⟩)
  · rw [Equation.entry_eq_getD, List.getD_eq_default _ _ (not_lt.mp hlen)]
    exact h0

/-- The column found is eligible and has a reduced cost above the tolerance. -/
theorem lt_entry_of_entering?_eq_some {eligible : ℕ} {lowestIndex : Bool} {col : ℕ}
    (h : t.entering? tolerance eligible lowestIndex = some col) :
    col < eligible ∧ tolerance < t.objective.entry col := by
  have hsome : ∃ c, (t.objective.coefficients.take eligible)[col]? = some c ∧ tolerance < c := by
    unfold entering? at h
    split at h
    · obtain ⟨hlt, hc, -⟩ := List.findIdx?_eq_some_iff_getElem.mp h
      exact ⟨_, List.getElem?_eq_getElem hlt, (Scalar.lt_rat _ _).mp hc⟩
    · exact largestCost?_eq_some h
  obtain ⟨c, hc, hlt⟩ := hsome
  rw [List.getElem?_take] at hc
  split at hc
  · next hcol =>
    refine ⟨hcol, ?_⟩
    rwa [Equation.entry_eq_getD, List.getD_eq_getElem?_getD, hc]
  · exact absurd hc (by simp)

/-- The search for the lowest index passes over columns whose reduced cost is not above the
tolerance. -/
theorem entry_le_of_lt_entering? {eligible col : ℕ} (h : t.entering? tolerance eligible true = some col)
    {j : ℕ} (hj : j < col) : t.objective.entry j ≤ tolerance := by
  obtain ⟨hlt, -, hbefore⟩ := List.findIdx?_eq_some_iff_getElem.mp h
  rw [List.length_take, lt_min_iff] at hlt
  have hskip := hbefore j hj
  rw [Bool.not_eq_true, Scalar.lt_rat_eq_false, List.getElem_take] at hskip
  rwa [Equation.entry_eq_getD, List.getD_eq_getElem _ _ (hj.trans hlt.2)]

/-! ## Choices that the tolerance does not touch -/

/-- One cost of the search for the largest. -/
private def costStep (best : ℚ × Option ℕ) (c : ℚ × ℕ) : ℚ × Option ℕ :=
  if Scalar.lt best.1 c.1 then (c.1, some c.2) else best

/-- With and without the tolerance, either no cost so far is above zero or the largest one is the same. -/
private theorem foldl_costStep_eq (h0 : 0 ≤ tolerance) (L : List (ℚ × ℕ))
    (hL : ∀ c ∈ L, Apart tolerance c.1 0) :
    L.foldl costStep (tolerance, none) = (tolerance, none) ∧ L.foldl costStep (0, none) = (0, none) ∨
      L.foldl costStep (tolerance, none) = L.foldl costStep (0, none) := by
  induction L using List.reverseRecOn with
  | nil => exact .inl ⟨rfl, rfl⟩
  | append_singleton L c ih =>
    have hc := hL c (List.mem_append_right _ (List.mem_singleton_self c))
    simp only [List.foldl_append, List.foldl_cons, List.foldl_nil]
    rcases ih fun d hd => hL d (List.mem_append_left _ hd) with ⟨hnone, hnone'⟩ | heq
    · simp only [hnone, hnone', costStep, Scalar.lt_rat, hc.lt_iff h0]
      split
      · exact .inr rfl
      · exact .inl ⟨rfl, rfl⟩
    · exact .inr (by rw [heq])

theorem largestCost?_eq (h0 : 0 ≤ tolerance) {costs : List ℚ} (h : ∀ c ∈ costs, Apart tolerance c 0) :
    largestCost? tolerance costs = largestCost? 0 costs := by
  have hplaces : ∀ c ∈ costs.zipIdx, Apart tolerance c.1 0 :=
    fun c hc => h c.1 (List.mem_of_getElem? (List.mem_zipIdx_iff_getElem?.mp hc))
  show (costs.zipIdx.foldl costStep (tolerance, none)).2 = (costs.zipIdx.foldl costStep (0, none)).2
  rcases foldl_costStep_eq h0 _ hplaces with ⟨hnone, hnone'⟩ | heq
  · rw [hnone, hnone']
  · rw [heq]

/-- The first cost above the tolerance is the first one above zero. -/
theorem findIdx?_lt_eq (h0 : 0 ≤ tolerance) {costs : List ℚ} (h : ∀ c ∈ costs, Apart tolerance c 0) :
    costs.findIdx? (fun c => Scalar.lt tolerance c) = costs.findIdx? (fun c => Scalar.lt 0 c) := by
  induction costs with
  | nil => rfl
  | cons c costs ih =>
    have hc : Scalar.lt tolerance c = Scalar.lt 0 c := by
      rw [Bool.eq_iff_iff, Scalar.lt_rat, Scalar.lt_rat, (h c List.mem_cons_self).lt_iff h0]
    rw [List.findIdx?_cons, List.findIdx?_cons, hc, ih fun d hd => h d (List.mem_cons_of_mem _ hd)]

/-- Where the eligible costs are apart from zero, the same column enters as without a tolerance. -/
theorem entering?_eq (h0 : 0 ≤ tolerance) {eligible : ℕ}
    (h : ∀ c ∈ t.objective.coefficients.take eligible, Apart tolerance c 0) (lowestIndex : Bool) :
    t.entering? tolerance eligible lowestIndex = t.entering? 0 eligible lowestIndex := by
  unfold entering?
  cases lowestIndex with
  | false => exact largestCost?_eq h0 h
  | true => exact findIdx?_lt_eq h0 h

/-- Where the coefficients of the column are apart from zero, and the ratios from each other, the rows
have the same candidate as without a tolerance. -/
private theorem candidate?_eq (h0 : 0 ≤ tolerance) {col : ℕ} (L : List (BasicRow ℚ × ℕ))
    (hcoefficients : ∀ p ∈ L, Apart tolerance (p.1.equation.entry col) 0)
    (hratios : ∀ p ∈ L, ∀ q ∈ L, Competes 0 col p.1 → Competes 0 col q.1 →
      Apart tolerance (ratio col p.1) (ratio col q.1)) :
    candidate? tolerance col L = candidate? 0 col L := by
  induction L using List.reverseRecOn with
  | nil => rfl
  | append_singleton L p ih =>
    have hold {q : BasicRow ℚ × ℕ} (hq : q ∈ L) : q ∈ L ++ [p] := List.mem_append_left _ hq
    have hlast : p ∈ L ++ [p] := List.mem_append_right _ (List.mem_singleton_self p)
    have hcompetes : Competes tolerance col p.1 ↔ Competes 0 col p.1 :=
      and_congr_left' ((hcoefficients p hlast).lt_iff h0)
    rw [candidate?_append, candidate?_append, ih (fun q hq => hcoefficients q (hold hq))
      fun q hq q' hq' => hratios q (hold hq) q' (hold hq')]
    by_cases hcomp : Competes 0 col p.1
    · cases hc : candidate? 0 col L with
      | none => rw [ratioStep_none _ hcomp, ratioStep_none _ (hcompetes.mpr hcomp)]
      | some c =>
        obtain ⟨r, hwin, hr, hratio, hbasic⟩ := winner?_of_candidate? hc
        have hapart := hratios p hlast (r, c.row) (hold hr) hcomp (mem_of_winner?_eq_some hwin).2
        rw [ratioStep_some _ hcomp hratio hbasic, ratioStep_some _ (hcompetes.mpr hcomp) hratio hbasic]
        simp only [Beats, hapart.lt_sub_iff h0, hapart.le_add_iff h0, sub_zero, add_zero]
    · rw [ratioStep_of_not_competes _ hcomp, ratioStep_of_not_competes _ (mt hcompetes.mp hcomp)]

/-- Where the coefficients of the column are apart from zero, and the ratios from each other, the same
row leaves as without a tolerance. -/
theorem leaving?_eq (h0 : 0 ≤ tolerance) {col : ℕ}
    (hcoefficients : ∀ r ∈ t.rows, Apart tolerance (r.equation.entry col) 0)
    (hratios : ∀ r ∈ t.rows, ∀ s ∈ t.rows, Competes 0 col r → Competes 0 col s →
      Apart tolerance (ratio col r) (ratio col s)) :
    t.leaving? tolerance col = t.leaving? 0 col := by
  have hrows {p : BasicRow ℚ × ℕ} (hp : p ∈ t.rows.zipIdx) : p.1 ∈ t.rows :=
    List.mem_of_getElem? (List.mem_zipIdx_iff_getElem?.mp hp)
  rw [leaving?_eq_map, leaving?_eq_map, candidate?_eq h0 _ (fun p hp => hcoefficients _ (hrows hp))
    fun p hp q hq => hratios _ (hrows hp) _ (hrows hq)]

/-! ## Pivots chosen without a tolerance -/

/-- Among right-hand sides that are not negative, a row competes when its coefficient is positive. -/
theorem Feasible.competes_iff (hf : t.Feasible) {col : ℕ} {r : BasicRow ℚ} (hr : r ∈ t.rows) :
    Competes 0 col r ↔ 0 < r.equation.entry col :=
  ⟨And.left, fun h => ⟨h, div_nonneg (hf r hr) h.le⟩⟩

/-- A row of least ratio keeps every right-hand side from becoming negative. -/
theorem Feasible.pivot (hf : t.Feasible) {row col : ℕ} (h : t.leaving? 0 col = some row) :
    (t.pivot row col).Feasible := by
  obtain ⟨r, hr, hpos, hnonneg⟩ := competes_of_leaving?_eq_some h
  intro s' hs'
  obtain ⟨k, s, hs, rfl⟩ := mem_rows_pivot hr hs'
  have hsmem := List.mem_of_getElem? hs
  by_cases hk : k = row
  · rw [pivoted, if_pos hk]
    exact hnonneg
  · rw [rhs_pivoted_of_ne hk, sub_nonneg]
    rcases le_or_gt (s.equation.entry col) 0 with hle | hgt
    · exact (mul_nonpos_of_nonpos_of_nonneg hle hnonneg).trans (hf s hsmem)
    · have hrank := rank_le_of_leaving?_eq_some h hr hsmem ((hf.competes_iff hsmem).mpr hgt)
      have hratio : ratio col r ≤ ratio col s := (Prod.Lex.toLex_le_toLex'.mp hrank).1
      rw [ratio, ratio, le_div_iff₀ hgt] at hratio
      linarith

end LinearProgram.Tableau
