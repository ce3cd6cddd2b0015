import Mathlib
import LinearProgram.Proofs.Simplex.Progress

/-!
# Bases do not repeat

A phase without a tolerance never comes back to a basis with the same rule for the entering column.
Suppose that it did. The objective never gets worse, so none of the pivots in between improves it; each
of them is degenerate, and after a degenerate pivot the column of lowest index enters. Among the
variables that enter and leave in such a loop let `q` be the last one. Where `q` enters, the columns
before it have no positive cost. Where `q` leaves, for a column `s` say, the edge along `s` improves the
objective, in whichever tableau of the loop that is measured. In the tableau where `q` enters some column
on the edge must therefore have a positive product with its cost, and every candidate contradicts the
choice of `s`, of `q`, or of the row that `q` leaves from.

There are only so many bases, and with them the number of pivots is bounded (`lt_of_lasts`).
-/

namespace LinearProgram.Tableau

/-- The columns of the basis. -/
def basis (t : Tableau ℚ) : Finset ℕ :=
  (t.rows.map BasicRow.basic).toFinset

variable {t t' : Tableau ℚ}

theorem mem_basis {j : ℕ} : j ∈ t.basis ↔ t.isBasic j = true := by
  simp [basis, isBasic]

theorem isBasic_eq_of_basis_eq (h : t'.basis = t.basis) : t'.isBasic = t.isBasic := by
  funext j
  rw [Bool.eq_iff_iff, ← mem_basis, ← mem_basis, h]

theorem Shaped.basis_subset (h : t.Shaped) : t.basis ⊆ Finset.range t.numColumns := by
  intro j hj
  obtain ⟨r, hr, rfl⟩ := isBasic_eq_true.mp (mem_basis.mp hj)
  exact Finset.mem_range.mpr (h.basic_lt r hr)

/-- An edge of one tableau, measured by the objective of an equivalent one of the same value: the costs
there grow along the edge by the reduced cost here. -/
theorem Equivalent.lhs_objective_edge (he : Equivalent t t') (h : t.Canonical) (hp : t.Priced)
    (hrhs : t'.objective.rhs = t.objective.rhs) {col : ℕ} (hcol : t.isBasic col = false) (θ : ℚ) :
    t'.objective.lhs (t.edge col θ) = t.objective.entry col * θ := by
  have hgap := he.gap_objective _ (solves_edge h col θ)
  rw [gap_objective_edge hcol hp, Equation.gap, hrhs] at hgap
  exact sub_left_inj.mp hgap

theorem Equivalent.symm (h : Equivalent t t') : Equivalent t' t where
  numVariables := h.numVariables.symm
  firstArtificial := h.firstArtificial.symm
  numColumns := h.numColumns.symm
  solves_iff x := (h.solves_iff x).symm
  gap_objective x hx := (h.gap_objective x ((h.solves_iff x).mp hx)).symm

end LinearProgram.Tableau

namespace LinearProgram.Simplex.Stage

open Tableau

/-- What comes back to where it was, and holds at one time but not at another, begins to hold at some
time. -/
private theorem exists_beginning {P : ℕ → Prop} {n x y : ℕ} (hback : P n ↔ P 0) (hx : x ≤ n)
    (hy : y ≤ n) (hPx : P x) (hPy : ¬P y) : ∃ k < n, ¬P k ∧ P (k + 1) := by
  by_contra hnever
  push Not at hnever
  -- what does not hold at `y` does not hold from then on, and so does not hold from the start
  have hfrom {i k : ℕ} (hi : ¬P i) (hik : i ≤ k) (hk : k ≤ n) : ¬P k := by
    induction k, hik using Nat.le_induction with
    | base => exact hi
    | succ k _ ih => exact hnever k hk (ih (Nat.le_of_succ_le hk))
  exact hfrom (mt hback.mpr (hfrom hPy hy le_rfl)) (Nat.zero_le x) hx hPx

variable {eligible n : ℕ} {g : Stage ℚ}

/-! ## Loops -/

/-- After `n` pivots the sequence from `g` is back at the basis and at the rule that it started with. -/
structure Loop (eligible : ℕ) (g : Stage ℚ) (n : ℕ) : Prop where
  primal : g.tableau.Primal
  pos : 0 < n
  lasts : g.Lasts 0 eligible n
  lowestIndex : (g.after 0 eligible n).lowestIndex = g.lowestIndex
  isBasic : (g.after 0 eligible n).tableau.isBasic = g.tableau.isBasic

/-- A sequence that lasts moves on. -/
theorem Lasts.exists_moves (h : g.Lasts 0 eligible n) {k : ℕ} (hk : k < n) :
    ∃ col row r, Moves eligible col row r (g.after 0 eligible k) (g.after 0 eligible (k + 1)) := by
  rw [after_succ_eq]
  exact Stage.exists_moves (h k hk)

namespace Loop

variable (h : Loop eligible g n)
include h

/-- The objective keeps its value in a loop. -/
theorem rhs_objective {k : ℕ} (hk : k ≤ n) :
    (g.after 0 eligible k).tableau.objective.rhs = g.tableau.objective.rhs := by
  have he := equivalent_after h.primal eligible n
  have hlast := primal_after h.primal eligible n
  have hback : (g.after 0 eligible n).tableau.objective.rhs = g.tableau.objective.rhs := by
    have hgap := he.gap_objective _ (solves_basicSolution h.primal.toCanonical)
    rw [← he.basicSolution_eq h.primal.toCanonical hlast.toCanonical h.isBasic,
      gap_objective_basicSolution hlast.priced,
      he.basicSolution_eq h.primal.toCanonical hlast.toCanonical h.isBasic,
      gap_objective_basicSolution h.primal.priced] at hgap
    exact neg_inj.mp hgap
  refine le_antisymm (rhs_objective_after_le h.primal (Nat.zero_le k)) ?_
  rw [← hback]
  exact rhs_objective_after_le h.primal hk

/-- Every pivot of a loop is degenerate. -/
theorem rhs_eq_zero {k : ℕ} (hk : k < n) {col row : ℕ} {r : BasicRow ℚ}
    (hmove : Moves eligible col row r (g.after 0 eligible k) (g.after 0 eligible (k + 1))) :
    r.equation.rhs = 0 :=
  hmove.rhs_eq_zero ((h.rhs_objective hk).trans (h.rhs_objective hk.le).symm)

theorem basicSolution {k : ℕ} (hk : k ≤ n) :
    (g.after 0 eligible k).tableau.basicSolution = g.tableau.basicSolution := by
  induction k with
  | zero => rfl
  | succ k ih =>
    obtain ⟨col, row, r, hmove⟩ := h.lasts.exists_moves hk
    rw [hmove.basicSolution_eq (primal_after h.primal eligible k) (h.rhs_eq_zero hk hmove)]
    exact ih (Nat.le_of_succ_le hk)

/-- Every column of a loop enters as the one of lowest index. -/
theorem lowestIndex_after {k : ℕ} (hk : k ≤ n) : (g.after 0 eligible k).lowestIndex = true := by
  have hsucc {k : ℕ} (hk : k < n) : (g.after 0 eligible (k + 1)).lowestIndex = true := by
    obtain ⟨col, row, r, hmove⟩ := h.lasts.exists_moves hk
    exact hmove.lowestIndex_iff.mpr (h.rhs_eq_zero hk hmove)
  cases k with
  | zero =>
    obtain ⟨last, rfl⟩ := Nat.exists_eq_succ_of_ne_zero h.pos.ne'
    exact h.lowestIndex.symm.trans (hsucc (Nat.lt_succ_self last))
  | succ k => exact hsucc hk

theorem entering? {k : ℕ} (hk : k < n) {col row : ℕ} {r : BasicRow ℚ}
    (hmove : Moves eligible col row r (g.after 0 eligible k) (g.after 0 eligible (k + 1))) :
    (g.after 0 eligible k).tableau.entering? 0 eligible true = some col := by
  rw [← h.lowestIndex_after hk.le]
  exact hmove.entering

/-- A variable that is in the basis at one time of a loop and outside at another enters at some time. -/
theorem exists_entering {j x y : ℕ} (hx : x ≤ n) (hy : y ≤ n)
    (hin : (g.after 0 eligible x).tableau.isBasic j = true)
    (hout : (g.after 0 eligible y).tableau.isBasic j = false) :
    ∃ k < n, (g.after 0 eligible k).tableau.entering? 0 eligible true = some j := by
  obtain ⟨k, hk, hbefore, hafter⟩ := exists_beginning
    (P := fun k => (g.after 0 eligible k).tableau.isBasic j = true) (by rw [h.isBasic]; rfl) hx hy hin
    (by rw [hout]; exact Bool.false_ne_true)
  obtain ⟨col, row, r, hmove⟩ := h.lasts.exists_moves hk
  refine ⟨k, hk, ?_⟩
  rw [hmove.isBasic_iff (primal_after h.primal eligible k)] at hafter
  rw [hafter.resolve_right fun hstays => hbefore hstays.1]
  exact h.entering? hk hmove

/-- A variable that enters in a loop leaves at some time of it. -/
theorem exists_leaving {j k : ℕ} (hk : k < n)
    (hj : (g.after 0 eligible k).tableau.entering? 0 eligible true = some j) :
    ∃ b < n, ∃ col row r,
      Moves eligible col row r (g.after 0 eligible b) (g.after 0 eligible (b + 1)) ∧ r.basic = j := by
  obtain ⟨col, row, r, hmove⟩ := h.lasts.exists_moves hk
  have hcol : col = j := Option.some.inj ((h.entering? hk hmove).symm.trans hj)
  have hbefore := (primal_after h.primal eligible k).isBasic_entering hmove.entering
  have hafter := (hmove.isBasic_iff (primal_after h.primal eligible k) col).mpr (.inl rfl)
  rw [hcol] at hbefore hafter
  obtain ⟨b, hb, hin, hout⟩ := exists_beginning
    (P := fun k => ¬(g.after 0 eligible k).tableau.isBasic j = true) (by rw [h.isBasic]; rfl) hk.le hk
    (by rw [hbefore]; exact Bool.false_ne_true) (not_not.mpr hafter)
  obtain ⟨col', row', r', hmove'⟩ := h.lasts.exists_moves hb
  refine ⟨b, hb, col', row', r', hmove', ?_⟩
  rw [hmove'.isBasic_iff (primal_after h.primal eligible b), not_or, not_and_not_right] at hout
  exact (hout.2 (not_not.mp hin)).symm

/-- The last variable `q` of those that enter in a loop enters at `a`, and at `b` it leaves from the row
`r`, for the column `s`. -/
structure Last (eligible : ℕ) (g : Stage ℚ) (n a b q s row : ℕ) (r : BasicRow ℚ) : Prop where
  enters_lt : a < n
  leaves_lt : b < n
  enters : (g.after 0 eligible a).tableau.entering? 0 eligible true = some q
  last : ∀ k < n, ∀ j, (g.after 0 eligible k).tableau.entering? 0 eligible true = some j → j ≤ q
  leaves : Moves eligible s row r (g.after 0 eligible b) (g.after 0 eligible (b + 1))
  basic : r.basic = q

theorem exists_last : ∃ a b q s row r, Last eligible g n a b q s row r := by
  obtain ⟨a, ha, hmax⟩ := (Finset.range n).exists_max_image
    (fun k => ((g.after 0 eligible k).tableau.entering? 0 eligible true).getD 0)
    ⟨0, Finset.mem_range.mpr h.pos⟩
  rw [Finset.mem_range] at ha
  obtain ⟨q, _, _, hmove⟩ := h.lasts.exists_moves ha
  have hq := h.entering? ha hmove
  obtain ⟨b, hb, s, row, r, hleaves, hbasic⟩ := h.exists_leaving ha hq
  refine ⟨a, b, q, s, row, r, ha, hb, hq, ?_, hleaves, hbasic⟩
  intro k hk j hj
  have hle := hmax k (Finset.mem_range.mpr hk)
  rwa [hj, hq] at hle

section Last

variable {a b q s row : ℕ} {r : BasicRow ℚ} (hl : Last eligible g n a b q s row r)
include hl

/-- The column that `q` leaves for is outside the basis there. -/
theorem isBasic_leaves : (g.after 0 eligible b).tableau.isBasic s = false :=
  (primal_after h.primal eligible b).isBasic_entering hl.leaves.entering

/-- It comes before `q`. -/
theorem lt_last : s < q := by
  refine lt_of_le_of_ne (hl.last b hl.leaves_lt s (h.entering? hl.leaves_lt hl.leaves)) ?_
  rintro rfl
  have hs := h.isBasic_leaves hl
  rw [← hl.basic, isBasic_of_mem hl.leaves.mem] at hs
  exact Bool.noConfusion hs

/-- Its edge improves the objective, by the costs at `a` as well. -/
theorem lhs_edge_pos : 0 < (g.after 0 eligible a).tableau.objective.lhs
    ((g.after 0 eligible b).tableau.edge s 1) := by
  have hprimal := primal_after h.primal eligible b
  have he := (equivalent_after h.primal eligible b).symm.trans
    (equivalent_after h.primal eligible a)
  rw [he.lhs_objective_edge hprimal.toCanonical hprimal.priced
    ((h.rhs_objective hl.enters_lt.le).trans (h.rhs_objective hl.leaves_lt.le).symm)
    (h.isBasic_leaves hl), mul_one]
  exact hl.leaves.cost_pos

/-- A variable that is in the basis at `b` and outside at `a` is zero there, and not after `q`. -/
theorem of_isBasic {r' : BasicRow ℚ} (hr' : r' ∈ (g.after 0 eligible b).tableau.rows)
    (hout : (g.after 0 eligible a).tableau.isBasic r'.basic = false) :
    r'.equation.rhs = 0 ∧ r'.basic ≤ q := by
  refine ⟨?_, ?_⟩
  · rw [← basicSolution_of_mem (primal_after h.primal eligible b).toCanonical hr',
      h.basicSolution hl.leaves_lt.le, ← h.basicSolution hl.enters_lt.le,
      basicSolution_of_not_basic hout]
  · obtain ⟨k, hk, hkj⟩ := h.exists_entering hl.leaves_lt.le hl.enters_lt.le (isBasic_of_mem hr') hout
    exact hl.last k hk _ hkj

/-- Such a variable does not improve the objective along the edge, by the costs at `a`. -/
theorem mul_entry_nonneg {r' : BasicRow ℚ} (hr' : r' ∈ (g.after 0 eligible b).tableau.rows)
    (hout : (g.after 0 eligible a).tableau.isBasic r'.basic = false) :
    0 ≤ (g.after 0 eligible a).tableau.objective.entry r'.basic * r'.equation.entry s := by
  have hprimal := primal_after h.primal eligible b
  obtain ⟨hrhs, hle⟩ := h.of_isBasic hl hr' hout
  rcases eq_or_lt_of_le hle with heq | hlt
  · -- `q` has a positive cost where it enters, and a positive coefficient where it leaves
    have hrr' : r' = r := hprimal.toCanonical.eq_of_basic_eq hr' hl.leaves.mem (heq.trans hl.basic.symm)
    rw [heq, hrr']
    exact (mul_pos (lt_entry_of_entering?_eq_some hl.enters).2 hl.leaves.pos).le
  · -- an earlier one has no positive cost, and with a positive coefficient it would have left instead
    refine mul_nonneg_of_nonpos_of_nonpos (entry_le_of_lt_entering? hl.enters hlt) ?_
    by_contra hentry
    have hrank := rank_le_of_leaving?_eq_some hl.leaves.leaving hl.leaves.getElem? hr'
      ((hprimal.feasible.competes_iff hr').mpr (not_le.mp hentry))
    rw [rank, rank, ratio, ratio, h.rhs_eq_zero hl.leaves_lt hl.leaves, hrhs, zero_div, zero_div,
      Prod.Lex.toLex_le_toLex'] at hrank
    exact absurd (hrank.2 rfl) (not_le.mpr (hl.basic ▸ hlt))

/-- No column at all does. -/
theorem mul_edge_nonpos (j : ℕ) : (g.after 0 eligible a).tableau.objective.entry j *
    (g.after 0 eligible b).tableau.edge s 1 j ≤ 0 := by
  cases hj : (g.after 0 eligible b).tableau.isBasic j with
  | false =>
    -- the only column outside the basis that moves is `s`
    rw [edge, complete_of_not_basic hj]
    split
    · next hjs =>
      rw [mul_one, hjs]
      exact entry_le_of_lt_entering? hl.enters (h.lt_last hl)
    · rw [mul_zero]
  | true =>
    obtain ⟨r', hr', rfl⟩ := isBasic_eq_true.mp hj
    cases hout : (g.after 0 eligible a).tableau.isBasic r'.basic with
    | false =>
      rw [edge_of_mem (h.isBasic_leaves hl) (primal_after h.primal eligible b).toCanonical hr',
        (h.of_isBasic hl hr' hout).1, mul_one, zero_sub, mul_neg, Left.neg_nonpos_iff]
      exact h.mul_entry_nonneg hl hr' hout
    | true =>
      obtain ⟨r'', hr'', hbasic⟩ := isBasic_eq_true.mp hout
      rw [← hbasic, (primal_after h.primal eligible a).priced r'' hr'', zero_mul]

end Last

/-- There are no loops. -/
theorem impossible : False := by
  obtain ⟨a, b, q, s, row, r, hl⟩ := h.exists_last
  exact absurd (dot_nonpos fun j _ => h.mul_edge_nonpos hl j) (not_le.mpr (h.lhs_edge_pos hl))

end Loop

/-! ## Counting bases -/

/-- The rule and the basis of a stage do not come back. -/
theorem injOn_basis (h : g.tableau.Primal) (hlasts : g.Lasts 0 eligible n) :
    Set.InjOn (fun k => ((g.after 0 eligible k).lowestIndex, (g.after 0 eligible k).tableau.basis))
      (Finset.range (n + 1)) := by
  -- a stage that comes back closes a loop
  have hlt {i k : ℕ} (hik : i < k) (hk : k ≤ n)
      (heq : ((g.after 0 eligible k).lowestIndex, (g.after 0 eligible k).tableau.basis) =
        ((g.after 0 eligible i).lowestIndex, (g.after 0 eligible i).tableau.basis)) : False := by
    obtain ⟨m, rfl⟩ := Nat.exists_eq_add_of_lt hik
    rw [Prod.mk.injEq, Nat.add_assoc, after_add] at heq
    refine Loop.impossible
      ⟨primal_after h eligible i, m.succ_pos, ?_, heq.1, isBasic_eq_of_basis_eq heq.2⟩
    intro l hl
    rw [← after_add]
    exact hlasts (i + l) (by omega)
  intro i hi k hk heq
  rw [Finset.mem_coe, Finset.mem_range, Nat.lt_succ_iff] at hi hk
  rcases lt_trichotomy i k with hik | hik | hik
  · exact (hlt hik hk heq.symm).elim
  · exact hik
  · exact (hlt hik hi heq).elim

/-- A phase makes fewer pivots than there are sets of columns, for each rule. -/
theorem lt_of_lasts (h : g.tableau.Primal) (hlasts : g.Lasts 0 eligible n) :
    n < 2 ^ (g.tableau.numColumns + 1) := by
  have hmaps : Set.MapsTo
      (fun k => ((g.after 0 eligible k).lowestIndex, (g.after 0 eligible k).tableau.basis))
      (Finset.range (n + 1))
      (Finset.univ ×ˢ (Finset.range g.tableau.numColumns).powerset : Finset (Bool × Finset ℕ)) := by
    intro k _
    have hsub := (primal_after h eligible k).basis_subset
    rw [(equivalent_after h eligible k).numColumns] at hsub
    exact Finset.mem_product.mpr ⟨Finset.mem_univ _, Finset.mem_powerset.mpr hsub⟩
  have hcard := Finset.card_le_card_of_injOn _ hmaps (injOn_basis h hlasts)
  rwa [Finset.card_range, Finset.card_product, Finset.card_univ, Fintype.card_bool,
    Finset.card_powerset, Finset.card_range, ← pow_succ', Nat.succ_le_iff] at hcard

end LinearProgram.Simplex.Stage
