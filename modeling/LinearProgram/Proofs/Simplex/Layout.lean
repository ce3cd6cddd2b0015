import Mathlib
import LinearProgram.Proofs.Simplex.Equation

/-!
# The columns of the starting tableau

`Tableau.layOut` hands out slack and artificial columns from two running counters. Here every row is
first given its columns (`place`) and then turned into an equation (`Placed.toRow`), so that a statement
on one row needs only where its columns are: inside the range of their group, and apart from those of
every other row.
-/

namespace LinearProgram.Tableau

variable {K : Type}

/-- A constraint with the next free column of each group. Which of the two it takes is up to its
relation. -/
structure Placed (K : Type) where
  row : DenseRow K
  slack : ℕ
  artificial : ℕ

/-- The rows with the columns that are free when their turn comes. -/
def place : List (DenseRow K) → (slack artificial : ℕ) → List (Placed K)
  | [], _, _ => []
  | r :: rs, slack, artificial =>
    ⟨r, slack, artificial⟩ ::
      place rs (slack + if hasSlack r then 1 else 0) (artificial + if hasArtificial r then 1 else 0)

/-- Equations have no slack. -/
theorem hasSlack_eq_true {r : DenseRow K} : hasSlack r = true ↔ r.relation ≠ .eq :=
  bne_iff_ne

/-- Upper bounds have no artificial variable. -/
theorem hasArtificial_eq_true {r : DenseRow K} : hasArtificial r = true ↔ r.relation ≠ .le :=
  bne_iff_ne

/-- A row without an artificial variable has a slack. -/
theorem hasSlack_of_not_hasArtificial {r : DenseRow K} (h : ¬hasArtificial r = true) :
    hasSlack r = true := by
  cases hr : r.relation <;> simp_all [hasArtificial, hasSlack]

namespace Placed

/-- The variable that starts in the basis: the artificial one of a row that has one, else the slack. -/
def basic (q : Placed K) : ℕ :=
  if hasArtificial q.row then q.artificial else q.slack

/-- The row has `n` coefficients, and its columns lie in the two groups that follow. -/
structure Fits (n numSlack numArtificial : ℕ) (q : Placed K) : Prop where
  width : q.row.coefficients.length = n
  slack : hasSlack q.row = true → n ≤ q.slack ∧ q.slack < n + numSlack
  artificial : hasArtificial q.row = true →
    n + numSlack ≤ q.artificial ∧ q.artificial < n + numSlack + numArtificial

/-- The variable that starts in the basis is not one of the program's. -/
theorem Fits.basic_bounds {n numSlack numArtificial : ℕ} {q : Placed K}
    (h : q.Fits n numSlack numArtificial) :
    n ≤ q.basic ∧ q.basic < n + numSlack + numArtificial := by
  unfold basic
  split
  · next ha =>
    have hbounds := h.artificial ha
    omega
  · next ha =>
    have hbounds := h.slack (hasSlack_of_not_hasArtificial ha)
    omega

variable [Scalar K]

/-- The row of the starting tableau. -/
def toRow (added : ℕ) (q : Placed K) : BasicRow K :=
  let columns := q.row.coefficients ++ List.replicate added 0
  match q.row.relation with
  | .le => ⟨q.slack, columns.set q.slack 1, q.row.rhs⟩
  | .ge => ⟨q.artificial, (columns.set q.slack (-1)).set q.artificial 1, q.row.rhs⟩
  | .eq => ⟨q.artificial, columns.set q.artificial 1, q.row.rhs⟩

@[simp]
theorem basic_toRow (added : ℕ) (q : Placed K) : (q.toRow added).basic = q.basic := by
  cases hr : q.row.relation <;> simp [toRow, basic, hasArtificial, hr]

@[simp]
theorem rhs_toRow (added : ℕ) (q : Placed K) : (q.toRow added).equation.rhs = q.row.rhs := by
  unfold toRow
  cases q.row.relation <;> rfl

theorem length_toRow (added : ℕ) (q : Placed K) :
    (q.toRow added).equation.coefficients.length = q.row.coefficients.length + added := by
  unfold toRow
  cases q.row.relation <;> simp

end Placed

/-! ## Placing rows -/

theorem layOut_eq_map_place [Scalar K] (added : ℕ) (rs : List (DenseRow K)) (slack artificial : ℕ) :
    layOut added rs slack artificial = (place rs slack artificial).map (Placed.toRow added) := by
  induction rs generalizing slack artificial with
  | nil => rfl
  | cons r rs ih =>
    cases hr : r.relation with
    | le => simp [layOut, place, Placed.toRow, hasSlack, hasArtificial, hr, ih]
    | ge => simp [layOut, place, Placed.toRow, hasSlack, hasArtificial, hr, ih]
    | eq => simp [layOut, place, Placed.toRow, hasSlack, hasArtificial, hr, ih]

theorem map_row_place (rs : List (DenseRow K)) (slack artificial : ℕ) :
    (place rs slack artificial).map Placed.row = rs := by
  induction rs generalizing slack artificial with
  | nil => rfl
  | cons r rs ih => rw [place, List.map_cons, ih]

/-- The columns of a row come from its groups. -/
theorem place_bounds {rs : List (DenseRow K)} {slack artificial : ℕ} {q : Placed K}
    (hq : q ∈ place rs slack artificial) :
    (slack ≤ q.slack ∧ (hasSlack q.row = true → q.slack < slack + rs.countP hasSlack)) ∧
      (artificial ≤ q.artificial ∧
        (hasArtificial q.row = true → q.artificial < artificial + rs.countP hasArtificial)) := by
  induction rs generalizing slack artificial with
  | nil => exact absurd hq List.not_mem_nil
  | cons r rs ih =>
    rw [place, List.mem_cons] at hq
    rw [List.countP_cons, List.countP_cons]
    rcases hq with rfl | hq
    · refine ⟨⟨le_rfl, fun h => ?_⟩, ⟨le_rfl, fun h => ?_⟩⟩
      · rw [if_pos h]
        exact Nat.lt_add_of_pos_right (Nat.succ_pos _)
      · rw [if_pos h]
        exact Nat.lt_add_of_pos_right (Nat.succ_pos _)
    · obtain ⟨⟨hs, hs'⟩, ⟨ha, ha'⟩⟩ := ih hq
      refine ⟨⟨by omega, fun h => ?_⟩, ⟨by omega, fun h => ?_⟩⟩
      · have := hs' h; omega
      · have := ha' h; omega

/-- A column is handed out once: later rows are given later columns. -/
theorem pairwise_place (rs : List (DenseRow K)) (slack artificial : ℕ) :
    (place rs slack artificial).Pairwise fun p q =>
      (hasSlack p.row = true → p.slack < q.slack) ∧
        (hasArtificial p.row = true → p.artificial < q.artificial) := by
  induction rs generalizing slack artificial with
  | nil => exact List.Pairwise.nil
  | cons r rs ih =>
    refine List.Pairwise.cons ?_ (ih _ _)
    intro q hq
    obtain ⟨⟨hs, -⟩, ⟨ha, -⟩⟩ := place_bounds hq
    constructor
    · intro h
      rw [if_pos h] at hs
      exact hs
    · intro h
      rw [if_pos h] at ha
      exact ha

/-- Every column of the two groups is handed out. -/
theorem exists_mem_place (rs : List (DenseRow K)) (slack artificial : ℕ) :
    (∀ j, slack ≤ j → j < slack + rs.countP hasSlack →
        ∃ q ∈ place rs slack artificial, hasSlack q.row = true ∧ q.slack = j) ∧
      (∀ j, artificial ≤ j → j < artificial + rs.countP hasArtificial →
        ∃ q ∈ place rs slack artificial, hasArtificial q.row = true ∧ q.artificial = j) := by
  induction rs generalizing slack artificial with
  | nil => exact ⟨fun j h h' => absurd h (not_le.mpr h'), fun j h h' => absurd h (not_le.mpr h')⟩
  | cons r rs ih =>
    obtain ⟨hslack, hartificial⟩ := ih (slack + if hasSlack r then 1 else 0)
      (artificial + if hasArtificial r then 1 else 0)
    rw [place]
    simp only [List.countP_cons, List.mem_cons, exists_eq_or_imp]
    constructor
    · intro j h h'
      by_cases hr : hasSlack r = true ∧ slack = j
      · exact .inl hr
      · refine .inr (hslack j ?_ (by omega))
        split
        · next hs => exact Nat.lt_of_le_of_ne h fun heq => hr ⟨hs, heq⟩
        · exact h
    · intro j h h'
      by_cases hr : hasArtificial r = true ∧ artificial = j
      · exact .inl hr
      · refine .inr (hartificial j ?_ (by omega))
        split
        · next ha => exact Nat.lt_of_le_of_ne h fun heq => hr ⟨ha, heq⟩
        · exact h

/-! ## One row over the rationals -/

/-- The coefficient of a row in its slack or surplus column. -/
def slackCoefficient : Relation → ℚ
  | .le => 1
  | .ge => -1
  | .eq => 0

/-- The coefficient of a row in its artificial column. -/
def artificialCoefficient : Relation → ℚ
  | .le => 0
  | .ge => 1
  | .eq => 1

theorem slackCoefficient_eq_zero {r : DenseRow K} (h : ¬hasSlack r = true) :
    slackCoefficient r.relation = 0 := by
  cases hr : r.relation <;> simp_all [slackCoefficient, hasSlack]

/-- A slack is added or taken away. -/
theorem slackCoefficient_mul_self {r : DenseRow K} (h : hasSlack r = true) :
    slackCoefficient r.relation * slackCoefficient r.relation = 1 := by
  cases hr : r.relation <;> simp_all [slackCoefficient, hasSlack]

theorem artificialCoefficient_eq (r : DenseRow K) :
    artificialCoefficient r.relation = if hasArtificial r then 1 else 0 := by
  cases hr : r.relation <;> simp [artificialCoefficient, hasArtificial, hr]

/-- A row without an artificial variable adds its slack. -/
theorem slackCoefficient_eq_one {r : DenseRow K} (h : ¬hasArtificial r = true) :
    slackCoefficient r.relation = 1 := by
  cases hr : r.relation <;> simp_all [slackCoefficient, hasArtificial]

namespace Placed

variable {n numSlack numArtificial : ℕ} {q : Placed ℚ}

theorem Fits.lhs_toRow (h : q.Fits n numSlack numArtificial) (x : ℕ → ℚ) :
    (q.toRow (numSlack + numArtificial)).equation.lhs x = dot q.row.coefficients x +
      slackCoefficient q.row.relation * x q.slack +
      artificialCoefficient q.row.relation * x q.artificial := by
  have hwidth := h.width
  have hlen : (q.row.coefficients ++ List.replicate (numSlack + numArtificial) (0 : ℚ)).length =
      n + (numSlack + numArtificial) := by
    simp [hwidth]
  -- a column beyond those of the constraint is zero before it is set
  have hzero {j : ℕ} (hj : n ≤ j) :
      (q.row.coefficients ++ List.replicate (numSlack + numArtificial) (0 : ℚ)).getD j 0 = 0 := by
    rw [getD_append_zeros, List.getD_eq_default _ _ (hwidth ▸ hj)]
  have hslack := h.slack
  have hartificial := h.artificial
  unfold toRow Equation.lhs
  unfold hasSlack at hslack
  unfold hasArtificial at hartificial
  revert hslack hartificial
  cases q.row.relation with
  | le =>
    intro hslack _
    obtain ⟨hs, hs'⟩ := hslack rfl
    show dot (List.set _ _ (1 : ℚ)) x = _
    rw [dot_set _ (by omega), hzero hs, dot_append_zeros, slackCoefficient, artificialCoefficient]
    ring
  | ge =>
    intro hslack hartificial
    obtain ⟨hs, hs'⟩ := hslack rfl
    obtain ⟨ha, ha'⟩ := hartificial rfl
    show dot (List.set (List.set _ _ (-1 : ℚ)) _ (1 : ℚ)) x = _
    rw [dot_set _ (by rw [List.length_set]; omega), dot_set _ (by omega), getD_set _ (by omega),
      if_neg (by omega), hzero hs, hzero (by omega), dot_append_zeros, slackCoefficient,
      artificialCoefficient]
    ring
  | eq =>
    intro _ hartificial
    obtain ⟨ha, ha'⟩ := hartificial rfl
    show dot (List.set _ _ (1 : ℚ)) x = _
    rw [dot_set _ (by omega), hzero (by omega), dot_append_zeros, slackCoefficient,
      artificialCoefficient]
    ring

theorem Fits.gap_toRow (h : q.Fits n numSlack numArtificial) (x : ℕ → ℚ) :
    (q.toRow (numSlack + numArtificial)).equation.gap x = dot q.row.coefficients x +
      slackCoefficient q.row.relation * x q.slack +
      artificialCoefficient q.row.relation * x q.artificial - q.row.rhs := by
  rw [Equation.gap, h.lhs_toRow, rhs_toRow]

/-- The coefficients of a row: those of the constraint, and those in its own two columns. -/
theorem Fits.entry_toRow (h : q.Fits n numSlack numArtificial) (j : ℕ) :
    (q.toRow (numSlack + numArtificial)).equation.entry j = q.row.coefficients.getD j 0 +
      slackCoefficient q.row.relation * (if q.slack = j then 1 else 0) +
      artificialCoefficient q.row.relation * (if q.artificial = j then 1 else 0) := by
  have hlhs := h.lhs_toRow fun k => if k = j then 1 else 0
  rwa [Equation.lhs_single, mul_one, dot_single, mul_one] at hlhs

/-- In the slack columns a row has its own coefficient. -/
theorem Fits.entry_toRow_slack (h : q.Fits n numSlack numArtificial) {j : ℕ} (hn : n ≤ j)
    (hj : j < n + numSlack) : (q.toRow (numSlack + numArtificial)).equation.entry j =
      slackCoefficient q.row.relation * if q.slack = j then 1 else 0 := by
  have hartificial : artificialCoefficient q.row.relation *
      (if q.artificial = j then 1 else 0) = 0 := by
    by_cases ha : hasArtificial q.row = true
    · have hbounds := h.artificial ha
      rw [if_neg (by omega), mul_zero]
    · rw [artificialCoefficient_eq, if_neg ha, zero_mul]
  rw [h.entry_toRow, hartificial, List.getD_eq_default _ _ (h.width ▸ hn), zero_add, add_zero]

/-- In the artificial columns a row has its own coefficient. -/
theorem Fits.entry_toRow_artificial (h : q.Fits n numSlack numArtificial) {j : ℕ}
    (hj : n + numSlack ≤ j) : (q.toRow (numSlack + numArtificial)).equation.entry j =
      artificialCoefficient q.row.relation * if q.artificial = j then 1 else 0 := by
  have hslack : slackCoefficient q.row.relation * (if q.slack = j then 1 else 0) = 0 := by
    by_cases hs : hasSlack q.row = true
    · have hbounds := h.slack hs
      rw [if_neg (by omega), mul_zero]
    · rw [slackCoefficient_eq_zero hs, zero_mul]
  have hlen : q.row.coefficients.length ≤ j := by
    rw [h.width]
    omega
  rw [h.entry_toRow, hslack, List.getD_eq_default _ _ hlen, zero_add, zero_add]

/-! ## Slacks and artificial variables measure how a constraint is met -/

/-- What the values of a row's own columns have to satisfy for its constraint to hold give or take
`margin`. -/
def Within (margin : ℚ) (x : ℕ → ℚ) (q : Placed ℚ) : Prop :=
  match q.row.relation with
  | .le => -margin ≤ x q.slack
  | .ge => -margin ≤ x q.slack - x q.artificial
  | .eq => |x q.artificial| ≤ margin

theorem Fits.holds_iff (h : q.Fits n numSlack numArtificial) {x : ℕ → ℚ}
    (hx : (q.toRow (numSlack + numArtificial)).equation.gap x = 0) (margin : ℚ) :
    q.row.relation.holds (dot q.row.coefficients x) q.row.rhs margin = true ↔
      q.Within margin x := by
  rw [h.gap_toRow] at hx
  revert hx
  unfold Within
  cases q.row.relation with
  | le =>
    simp only [slackCoefficient, artificialCoefficient, Relation.holds_le]
    intro hx
    constructor <;> intro _ <;> linarith
  | ge =>
    simp only [slackCoefficient, artificialCoefficient, Relation.holds_ge]
    intro hx
    constructor <;> intro _ <;> linarith
  | eq =>
    simp only [slackCoefficient, artificialCoefficient, Relation.holds_eq]
    intro hx
    rw [show dot q.row.coefficients x - q.row.rhs = -x q.artificial by linarith, abs_neg]

end Placed

end LinearProgram.Tableau
