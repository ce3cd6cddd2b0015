import Mathlib
import LinearProgram.Proofs.Simplex.Start

/-!
# The starting tableau is the program

`Represents` says what a tableau has in common with the program that it is built for: how many columns
of each group there are and that each added one belongs to one row, the basis that it starts from, and
that its rows and its objective say of the program's variables what the constraints and the objective of
the program say. Slacks and surpluses add nothing to that, because the constraints determine them
(`eq_extend_of_solves`). `ofProgram_represents` is the statement for the starting tableau of a model.
-/

namespace LinearProgram

/-! ## What a constraint needs -/

namespace DenseRow

/-- An equation needs no slack. -/
def NeedsSlack (r : DenseRow ℚ) : Prop :=
  r.relation ≠ .eq

/-- An upper bound by a number that is not negative needs no artificial variable, whichever way it is
written. -/
def NeedsArtificial (r : DenseRow ℚ) : Prop :=
  r.relation = .eq ∨ r.relation = .ge ∧ 0 ≤ r.rhs ∨ r.relation = .le ∧ r.rhs < 0

instance (r : DenseRow ℚ) : Decidable r.NeedsSlack :=
  inferInstanceAs (Decidable (_ ≠ _))

instance (r : DenseRow ℚ) : Decidable r.NeedsArtificial :=
  inferInstanceAs (Decidable (_ ∨ _))

theorem relation_oriented (r : DenseRow ℚ) :
    r.oriented.relation = if 0 ≤ r.rhs then r.relation else r.relation.flip := by
  unfold oriented
  simp only [Scalar.le_rat]
  split <;> rfl

theorem hasSlack_oriented (r : DenseRow ℚ) : Tableau.hasSlack r.oriented = true ↔ r.NeedsSlack := by
  rw [Tableau.hasSlack_eq_true, relation_oriented, NeedsSlack]
  split
  · rfl
  · cases r.relation <;> simp [Relation.flip]

theorem hasArtificial_oriented (r : DenseRow ℚ) :
    Tableau.hasArtificial r.oriented = true ↔ r.NeedsArtificial := by
  rw [Tableau.hasArtificial_eq_true, relation_oriented, NeedsArtificial]
  split
  · next h => cases r.relation <;> simp [h]
  · next h => cases r.relation <;> simp [Relation.flip, h, not_le.mp h]

end DenseRow

namespace Tableau

/-! ## Columns and the rows that they belong to -/

/-- The row in position `i` has the column. -/
def Uses {K : Type} [Scalar K] (t : Tableau K) (i j : ℕ) : Prop :=
  ∃ r, t.rows[i]? = some r ∧ r.equation.entry j ≠ 0

/-- Values for the columns: `x` for the program's variables, then `s` for the slacks and surpluses. The
artificial variables are zero. -/
def withSlacks (x s : List ℚ) : ℕ → ℚ := fun j =>
  (x ++ s).getD j 0

/-- A tableau of a program: what its columns, its basis, its solutions and its objective have to do with
the variables, the constraints and the objective of the program. -/
structure Represents (t : Tableau ℚ) (p : DenseProgram ℚ) : Prop where
  height : t.rows.length = p.rows.length
  numVariables : t.numVariables = p.numVariables
  numSlack : t.numSlack = p.rows.countP (·.NeedsSlack)
  numArtificial : t.numArtificial = p.rows.countP (·.NeedsArtificial)
  used_once : ∀ j, t.numVariables ≤ j → j < t.numVariables + t.numSlack + t.numArtificial →
    ∃! i, t.Uses i j
  feasible : t.Feasible
  distinct : (t.rows.map BasicRow.basic).Nodup
  canonical : t.Canonical
  satisfies_iff : ∀ x : List ℚ, x.length = p.numVariables → (∀ v ∈ x, 0 ≤ v) →
    ((∀ r ∈ p.rows, r.relation.holds (dot r.coefficients fun j => x.getD j 0) r.rhs 0 = true) ↔
      ∃ s : List ℚ, s.length = t.numSlack ∧ (∀ v ∈ s, 0 ≤ v) ∧ t.Solves (withSlacks x s))
  slacks_unique : ∀ x s s' : List ℚ, x.length = p.numVariables → s.length = t.numSlack →
    s'.length = t.numSlack → t.Solves (withSlacks x s) → t.Solves (withSlacks x s') → s = s'
  rhs_objective : t.objective.rhs = 0
  lhs_objective : ∀ y, t.objective.lhs y = p.sense.score (dot p.objective y)

section WithSlacks

variable {x s : List ℚ} {j : ℕ}

theorem withSlacks_of_lt (hj : j < x.length) : withSlacks x s j = x.getD j 0 := by
  rw [withSlacks, List.getD_append _ _ _ _ hj]

theorem withSlacks_add (k : ℕ) : withSlacks x s (x.length + k) = s.getD k 0 := by
  rw [withSlacks, List.getD_append_right _ _ _ _ (Nat.le_add_right _ _), Nat.add_sub_cancel_left]

theorem withSlacks_of_le (hj : x.length + s.length ≤ j) : withSlacks x s j = 0 :=
  List.getD_eq_default _ _ (List.length_append ▸ hj)

theorem withSlacks_nonneg (hx : ∀ v ∈ x, 0 ≤ v) (hs : ∀ v ∈ s, 0 ≤ v) (j : ℕ) :
    0 ≤ withSlacks x s j := by
  by_cases hj : j < (x ++ s).length
  · rw [withSlacks, List.getD_eq_getElem _ _ hj]
    exact (List.mem_append.mp (List.getElem_mem hj)).elim (hx _) (hs _)
  · rw [withSlacks, List.getD_eq_default _ _ (not_lt.mp hj)]

/-- Slacks are read off the values of the columns. -/
theorem eq_of_withSlacks_eq {s' : List ℚ} (hlen : s.length = s'.length)
    (h : ∀ k < s.length, withSlacks x s (x.length + k) = withSlacks x s' (x.length + k)) : s = s' := by
  refine List.ext_getElem hlen fun k hk hk' => ?_
  have heq := h k hk
  rwa [withSlacks_add, withSlacks_add, List.getD_eq_getElem _ _ hk, List.getD_eq_getElem _ _ hk'] at heq

end WithSlacks

/-! ## The starting tableau -/

section Start

variable {p : DenseProgram ℚ} (h : p.Rectangular)

/-- A column with a coefficient in one place belongs to the row there. -/
theorem existsUnique_uses {i j : ℕ} {c : ℚ} (hc : c ≠ 0) {q : Placed ℚ} (hq : (placed p)[i]? = some q)
    (hentry : ∀ k q', (placed p)[k]? = some q' →
      (q'.toRow ((ofProgram p).numSlack + (ofProgram p).numArtificial)).equation.entry j =
        if k = i then c else 0) : ∃! i, (ofProgram p).Uses i j := by
  have hrow : (ofProgram p).rows[i]? =
      some (q.toRow ((ofProgram p).numSlack + (ofProgram p).numArtificial)) := by
    rw [rows_ofProgram, List.getElem?_map, hq, Option.map_some]
  refine ⟨i, ⟨_, hrow, ?_⟩, ?_⟩
  · rwa [hentry i q hq, if_pos rfl]
  · rintro k ⟨r, hr, hne⟩
    obtain ⟨q', hq', rfl⟩ := getElem?_rows_ofProgram hr
    by_contra hki
    exact hne ((hentry k q' hq').trans (if_neg hki))

include h in
/-- Every slack, surplus and artificial column belongs to one row. -/
theorem used_once_ofProgram {j : ℕ} (hj : p.numVariables ≤ j) (hj' : j < (ofProgram p).numColumns) :
    ∃! i, (ofProgram p).Uses i j := by
  by_cases hslack : j < (ofProgram p).firstArtificial
  · obtain ⟨q, hq, hs, rfl⟩ := exists_slack hj hslack
    obtain ⟨i, hi⟩ := List.mem_iff_getElem?.mp hq
    refine existsUnique_uses ?_ hi fun k q' hq' => entry_slack_column h hi hq' hs
    revert hs
    cases hrel : q.row.relation <;> simp [slackCoefficient, hasSlack, hrel]
  · obtain ⟨q, hq, ha, rfl⟩ := exists_artificial (not_lt.mp hslack) hj'
    obtain ⟨i, hi⟩ := List.mem_iff_getElem?.mp hq
    exact existsUnique_uses one_ne_zero hi fun k q' hq' => entry_artificial_column h hi hq' ha

section Slacks

include h

/-- The constraints determine the slacks: a solution of the rows without artificial variables is the
extension of its first columns. -/
theorem eq_extend_of_solves {y v : ℕ → ℚ} (hy : (ofProgram p).Solves y)
    (hun : ∀ j, (ofProgram p).firstArtificial ≤ j → j < (ofProgram p).numColumns → y j = 0)
    (hv : ∀ j < p.numVariables, y j = v j) {j : ℕ} (hj : j < (ofProgram p).firstArtificial) :
    y j = extend p v j := by
  by_cases hvar : j < p.numVariables
  · rw [extend_of_lt hvar, hv j hvar]
  obtain ⟨q, hq, hs, rfl⟩ := exists_slack (not_lt.mp hvar) hj
  have hdot : dot q.row.coefficients y = dot q.row.coefficients v :=
    dot_congr fun k hk => hv k ((fits_of_mem_placed h hq).width ▸ hk)
  have hgap := hy _ (toRow_mem_rows_ofProgram hq)
  rw [gap_toRow_of_unaided h hq hun, hdot] at hgap
  rw [extend_slack h hq hs, Placed.leeway]
  linear_combination slackCoefficient q.row.relation * hgap - y q.slack * slackCoefficient_mul_self hs

variable {x : List ℚ} (hx : x.length = p.numVariables)
include hx

omit h in
/-- Slacks are the last columns before the artificial ones, which are zero. -/
theorem withSlacks_unaided {s : List ℚ} (hs : s.length = (ofProgram p).numSlack) {j : ℕ}
    (hj : (ofProgram p).firstArtificial ≤ j) : withSlacks x s j = 0 :=
  withSlacks_of_le (hx ▸ hs ▸ hj)

/-- The slacks that the constraints leave complete `x` to its extension. -/
theorem exists_withSlacks_eq_extend : ∃ s : List ℚ, s.length = (ofProgram p).numSlack ∧
    withSlacks x s = extend p fun j => x.getD j 0 := by
  refine ⟨(List.range (ofProgram p).numSlack).map fun k =>
    extend p (fun j => x.getD j 0) (p.numVariables + k), by simp, funext fun j => ?_⟩
  rcases lt_or_ge j x.length with hvar | hvar
  · rw [withSlacks_of_lt hvar, extend_of_lt (hx ▸ hvar)]
  obtain ⟨k, rfl⟩ := Nat.exists_eq_add_of_le hvar
  rw [withSlacks_add]
  rcases lt_or_ge k (ofProgram p).numSlack with hk | hk
  · rw [List.getD_eq_getElem _ _ (by simpa using hk), List.getElem_map, List.getElem_range, hx]
  · rw [List.getD_eq_default _ _ (by simpa using hk), hx]
    exact (extend_artificial h (Nat.add_le_add_left hk _) _).symm

/-- A vector that is not negative meets the constraints exactly when slacks that are not negative
complete it to a solution of the rows. -/
theorem holds_iff_exists_slacks (hnonneg : ∀ v ∈ x, 0 ≤ v) :
    (∀ r ∈ p.rows, r.relation.holds (dot r.coefficients fun j => x.getD j 0) r.rhs 0 = true) ↔
      ∃ s : List ℚ, s.length = (ofProgram p).numSlack ∧ (∀ v ∈ s, 0 ≤ v) ∧
        (ofProgram p).Solves (withSlacks x s) := by
  constructor
  · intro hholds
    have hfeasible : p.Feasible fun j => x.getD j 0 := by
      refine ⟨fun j => ?_, hholds⟩
      have hzero := withSlacks_nonneg hnonneg (s := []) (by simp) j
      rwa [withSlacks, List.append_nil] at hzero
    obtain ⟨s, hs, heq⟩ := exists_withSlacks_eq_extend h hx
    refine ⟨s, hs, fun v hv => ?_, heq ▸ solves_extend h hfeasible⟩
    obtain ⟨k, hk, rfl⟩ := List.mem_iff_getElem.mp hv
    rw [← List.getD_eq_getElem s 0 hk, ← withSlacks_add (x := x), heq]
    exact extend_nonneg hfeasible _
  · rintro ⟨s, hs, hs0, hsolves⟩ r hr
    have hholds := holds_of_solves h hsolves (withSlacks_nonneg hnonneg hs0)
      (fun j hj _ => withSlacks_unaided hx hs hj) hr
    rwa [dot_congr fun j hj => withSlacks_of_lt (hx ▸ h.rows r hr ▸ hj)] at hholds

/-- The slacks are unique, whatever their signs. -/
theorem slacks_unique {s s' : List ℚ} (hs : s.length = (ofProgram p).numSlack)
    (hs' : s'.length = (ofProgram p).numSlack) (hsolves : (ofProgram p).Solves (withSlacks x s))
    (hsolves' : (ofProgram p).Solves (withSlacks x s')) : s = s' := by
  refine eq_of_withSlacks_eq (x := x) (hs.trans hs'.symm) fun k hk => ?_
  have hlt : x.length + k < (ofProgram p).firstArtificial :=
    hx ▸ Nat.add_lt_add_left (hs ▸ hk) p.numVariables
  have hextend {s : List ℚ} (hs : s.length = (ofProgram p).numSlack)
      (hsolves : (ofProgram p).Solves (withSlacks x s)) :
      withSlacks x s (x.length + k) = extend p (fun j => x.getD j 0) (x.length + k) :=
    eq_extend_of_solves h hsolves (fun j hj _ => withSlacks_unaided hx hs hj)
      (fun j hj => withSlacks_of_lt (hx ▸ hj)) hlt
  rw [hextend hs hsolves, hextend hs' hsolves']

end Slacks

include h in
/-- The starting tableau of a rectangular program represents it. -/
theorem represents_of_rectangular : (ofProgram p).Represents p where
  height := (length_layOut _ _ _ _).trans (List.length_map _)
  numVariables := rfl
  numSlack := by
    refine (List.countP_map ..).trans (List.countP_congr fun r _ => ?_)
    rw [Function.comp_apply, decide_eq_true_iff, DenseRow.hasSlack_oriented]
  numArtificial := by
    refine (List.countP_map ..).trans (List.countP_congr fun r _ => ?_)
    rw [Function.comp_apply, decide_eq_true_iff, DenseRow.hasArtificial_oriented]
  used_once _ := used_once_ofProgram h
  feasible := feasible_ofProgram
  distinct := (canonical_ofProgram h).nodup_basic
  canonical := canonical_ofProgram h
  satisfies_iff _ hx hnonneg := holds_iff_exists_slacks h hx hnonneg
  slacks_unique _ _ _ hx hs hs' := slacks_unique h hx hs hs'
  rhs_objective := rfl
  lhs_objective y := by
    rw [← gap_objective_ofProgram, Equation.gap]
    exact (sub_zero _).symm

end Start

/-- **The starting tableau is the model.** It has a column for each variable, for each inequality and for
each artificial variable that is needed, and each added column belongs to one row; it starts from a basis
of unit columns whose values are not negative; and a vector that is not negative meets the constraints
exactly when slacks and surpluses that are not negative, of which there is one choice, make it a solution
of the rows, where the objective row has the value of the objective, negated for a minimization. -/
theorem ofProgram_represents (m : Model ℚ) : (ofProgram m.dense).Represents m.dense :=
  represents_of_rectangular m.rectangular_dense

/-- A lower bound by a negative number becomes an upper bound, which starts from its slack. -/
example : (ofProgram (⟨["x"], [1], .minimize, [⟨"floor", [2], .ge, -4⟩]⟩ : DenseProgram ℚ)).rows =
    [⟨1, ⟨[-2, 1], 4⟩⟩] := by
  decide +kernel

end Tableau

end LinearProgram
