import Mathlib
import LinearProgram.Proofs.Simplex.Course
import LinearProgram.Proofs.Simplex.Dropped
import LinearProgram.Proofs.Simplex.Start

/-!
# Runs at a tolerance

At a tolerance the ratio test may prefer a row whose ratio is not the smallest, and a row may be dropped
although it says something. Every tableau still has the solutions of the program, up to the rows that
were dropped (`Remnant`). So the point of a run meets the program give or take a margin exactly when no
right-hand side of its last tableau is below the margin, negated, and the dropped rows hold there give or
take the margin (`meets_iff`). The shipped tolerance does not ensure the former: two constraints whose
ratios are nearly tied can be of very different scale.
-/

namespace LinearProgram.Tableau

/-- What a tableau keeps of `t₀` at a tolerance, where `ds` are the rows that were dropped. -/
structure Remnant (tolerance : ℚ) (t₀ t : Tableau ℚ) (ds : List (BasicRow ℚ)) : Prop where
  canonical : t.Canonical
  structural : t.Structural
  numVariables : t.numVariables = t₀.numVariables
  firstArtificial : t.firstArtificial = t₀.firstArtificial
  numColumns : t.numColumns = t₀.numColumns
  solves_iff : ∀ x, t₀.Solves x ↔ t.Solves x ∧ ∀ d ∈ ds, d.equation.gap x = 0
  detached : Detached 0 t ds
  small : ∀ d ∈ ds, ∀ j < t₀.firstArtificial, |d.equation.entry j| ≤ tolerance

namespace Remnant

variable {tolerance : ℚ} {t₀ t : Tableau ℚ} {ds : List (BasicRow ℚ)}

/-- The second phase keeps it. -/
theorem climb (h : Remnant tolerance t₀ t ds) (h0 : 0 ≤ tolerance) (expired : ℕ → Bool)
    (left made : ℕ) (lowestIndex : Bool) :
    Remnant tolerance t₀
      (Simplex.climb tolerance t.firstArtificial expired left made lowestIndex t).tableau ds := by
  obtain ⟨hcanonical, heq⟩ := h.canonical.climb h0 t.firstArtificial expired left made lowestIndex
  exact
    { canonical := hcanonical
      structural := (h.structural.climb expired left made lowestIndex).1
      numVariables := heq.numVariables.trans h.numVariables
      firstArtificial := heq.firstArtificial.trans h.firstArtificial
      numColumns := heq.numColumns.trans h.numColumns
      solves_iff := fun x => by rw [h.solves_iff, heq.solves_iff]
      detached := h.detached.climb h.canonical h0 _ _ _ _ _
      small := h.small }

/-- A solution of the rows that are left becomes one of all rows. -/
theorem solves_restore (h : Remnant tolerance t₀ t ds) {x : ℕ → ℚ} (hx : t.Solves x) :
    t₀.Solves (restore ds x) := by
  rw [h.solves_iff]
  constructor
  · intro r hr
    rw [gap_restore_of_clear fun d hd => h.detached.clear d hd r hr]
    exact hx r hr
  · exact gap_restore_eq_zero h.detached.one h.detached.pairwise x

/-- Restoring changes artificial variables only. -/
theorem restore_of_lt (h : Remnant tolerance t₀ t ds) (x : ℕ → ℚ) {j : ℕ}
    (hj : j < t₀.firstArtificial) : restore ds x j = x j := by
  refine restore_of_ne ?_ x
  intro d hd heq
  have hle := h.detached.artificial d hd
  rw [h.firstArtificial] at hle
  omega

theorem isBasic_eq_false (h : Remnant tolerance t₀ t ds) {j : ℕ} (hj : t₀.firstArtificial ≤ j) :
    t.isBasic j = false :=
  h.structural.isBasic_eq_false (h.firstArtificial.trans_le hj)

/-- The basic variable of a dropped row takes up the gap of its row at the basic solution. -/
theorem restore_basic (h : Remnant tolerance t₀ t ds) {d : BasicRow ℚ} (hd : d ∈ ds) :
    restore ds t.basicSolution d.basic = -d.equation.gap t.basicSolution := by
  have hle := h.detached.artificial d hd
  rw [h.firstArtificial] at hle
  rw [restore_of_mem h.detached.one h.detached.pairwise _ d hd,
    basicSolution_of_not_basic (h.isBasic_eq_false hle), zero_sub]

end Remnant

/-! ## Surplus columns -/

section Program

variable {p : DenseProgram ℚ} (hp : p.Rectangular)
include hp

/-- The surplus and the artificial variable of a row can grow together. -/
theorem solves_add_surplus {q : Placed ℚ} (hq : q ∈ placed p) (hrel : q.row.relation = .ge)
    {x : ℕ → ℚ} (hx : (ofProgram p).Solves x) : (ofProgram p).Solves fun j =>
      x j + ((if j = q.slack then 1 else 0) + if j = q.artificial then 1 else 0) := by
  intro r hr
  obtain ⟨q', hq', rfl⟩ := mem_rows_ofProgram hr
  have hs : hasSlack q.row = true := hasSlack_eq_true.mpr (by rw [hrel]; decide)
  have ha : hasArtificial q.row = true := hasArtificial_eq_true.mpr (by rw [hrel]; decide)
  obtain ⟨i, hi⟩ := List.mem_iff_getElem?.mp hq
  obtain ⟨k, hk⟩ := List.mem_iff_getElem?.mp hq'
  rw [Equation.gap_add, hx _ hr, Equation.lhs_add, Equation.lhs_single, Equation.lhs_single,
    entry_slack_column hp hi hk hs, entry_artificial_column hp hi hk ha, hrel, slackCoefficient]
  split <;> ring

variable {tolerance : ℚ} {t : Tableau ℚ} {ds : List (BasicRow ℚ)}
  (h : Remnant tolerance (ofProgram p) t ds) (h1 : tolerance < 1)
include h h1

/-- The artificial variable of a lower bound is never dropped: its row contains the surplus as well. -/
theorem Remnant.basic_ne {q : Placed ℚ} (hq : q ∈ placed p) (hrel : q.row.relation = .ge)
    {d : BasicRow ℚ} (hd : d ∈ ds) : d.basic ≠ q.artificial := by
  intro hb
  have hs : hasSlack q.row = true := hasSlack_eq_true.mpr (by rw [hrel]; decide)
  have hx := solves_basicSolution (canonical_ofProgram hp)
  have hgap := ((h.solves_iff _).mp hx).2 d hd
  have hgap' := ((h.solves_iff _).mp (solves_add_surplus hp hq hrel hx)).2 d hd
  rw [Equation.gap_add, hgap, Equation.lhs_add, Equation.lhs_single, Equation.lhs_single, ← hb,
    h.detached.one d hd] at hgap'
  have hentry : d.equation.entry q.slack = -1 := by linarith
  have hsmall := h.small d hd q.slack ((fits_of_mem_placed hp hq).slack hs).2
  rw [hentry, abs_neg, abs_one] at hsmall
  linarith

/-- A dropped row started as an equation of the program. -/
theorem Remnant.exists_eq {d : BasicRow ℚ} (hd : d ∈ ds) :
    ∃ q ∈ placed p, q.row.relation = .eq ∧ q.artificial = d.basic := by
  have hle := h.detached.artificial d hd
  have hlt := h.detached.basic_lt d hd
  rw [h.firstArtificial] at hle
  rw [h.numColumns] at hlt
  obtain ⟨q, hq, ha, hb⟩ := exists_artificial hle hlt
  refine ⟨q, hq, ?_, hb⟩
  cases hrel : q.row.relation with
  | le => exact absurd hrel (hasArtificial_eq_true.mp ha)
  | ge => exact absurd hb.symm (h.basic_ne hp h1 hq hrel hd)
  | eq => rfl

/-! ## How closely a basic solution meets the program -/

/-- The artificial variable of a lower bound is zero also when the dropped rows are restored. -/
theorem Remnant.restore_artificial {q : Placed ℚ} (hq : q ∈ placed p) (hrel : q.row.relation = .ge) :
    restore ds t.basicSolution q.artificial = 0 := by
  have ha : hasArtificial q.row = true := hasArtificial_eq_true.mpr (by rw [hrel]; decide)
  rw [restore_of_ne fun d hd => h.basic_ne hp h1 hq hrel hd]
  exact basicSolution_of_not_basic (h.isBasic_eq_false ((fits_of_mem_placed hp hq).artificial ha).1)

/-- An inequality is met as closely as its slack or surplus variable is not negative. -/
theorem Remnant.within_iff_slack {q : Placed ℚ} (hq : q ∈ placed p) (hs : hasSlack q.row = true)
    (margin : ℚ) :
    q.Within margin (restore ds t.basicSolution) ↔ -margin ≤ t.basicSolution q.slack := by
  have hslack := h.restore_of_lt t.basicSolution ((fits_of_mem_placed hp hq).slack hs).2
  unfold Placed.Within
  cases hrel : q.row.relation with
  | le => simp only [hslack]
  | ge => simp only [hslack, h.restore_artificial hp h1 hq hrel, sub_zero]
  | eq => exact absurd hrel (hasSlack_eq_true.mp hs)

omit h1 in
/-- A constraint is met at the basic solution as closely as its columns say once the dropped rows are
restored. -/
theorem Remnant.holds_iff {q : Placed ℚ} (hq : q ∈ placed p) {r : DenseRow ℚ}
    (hr : q.row = r.oriented) (margin : ℚ) :
    r.relation.holds (dot r.coefficients t.basicSolution) r.rhs margin = true ↔
      q.Within margin (restore ds t.basicSolution) := by
  have hsolves := h.solves_restore (solves_basicSolution h.canonical)
  rw [← holds_iff_within hp hsolves hq hr margin, dot_congr]
  -- the program's own variables are not restored
  intro j hj
  have hlen := (fits_of_mem_placed hp hq).width
  rw [hr, DenseRow.length_oriented] at hlen
  exact (h.restore_of_lt _ (Nat.lt_add_right _ (hj.trans_eq hlen))).symm

/-- The basic solution meets the program give or take a margin exactly when no right-hand side is below
the margin, negated, and the gaps of the dropped rows are within it. -/
theorem Remnant.meets_iff {margin : ℚ} (hm : 0 ≤ margin) :
    ((∀ j < p.numVariables, -margin ≤ t.basicSolution j) ∧
        ∀ r ∈ p.rows, r.relation.holds (dot r.coefficients t.basicSolution) r.rhs margin = true) ↔
      (∀ r ∈ t.rows, -margin ≤ r.equation.rhs) ∧
        ∀ d ∈ ds, |d.equation.gap t.basicSolution| ≤ margin := by
  rw [← le_basicSolution_iff h.canonical (neg_nonpos.mpr hm)]
  constructor
  · rintro ⟨hvars, hrows⟩
    constructor
    · intro j
      rcases lt_or_ge j p.numVariables with hn | hn
      · exact hvars j hn
      rcases lt_or_ge j (ofProgram p).firstArtificial with hj | hj
      · -- a slack or surplus column, which its constraint bounds
        obtain ⟨q, hq, hs, rfl⟩ := exists_slack hn hj
        obtain ⟨r, hr, hqr⟩ := exists_row_of_mem_placed hq
        rw [← h.within_iff_slack hp h1 hq hs, ← h.holds_iff hp hq hqr]
        exact hrows r hr
      · rw [basicSolution_of_not_basic (h.isBasic_eq_false hj)]
        exact neg_nonpos.mpr hm
    · intro d hd
      obtain ⟨q, hq, hrel, hb⟩ := h.exists_eq hp h1 hd
      obtain ⟨r, hr, hqr⟩ := exists_row_of_mem_placed hq
      have hwithin := (h.holds_iff hp hq hqr margin).mp (hrows r hr)
      rw [Placed.Within, hrel] at hwithin
      rwa [hb, h.restore_basic hd, abs_neg] at hwithin
  · rintro ⟨hbasic, hgaps⟩
    refine ⟨fun j _ => hbasic j, ?_⟩
    intro r hr
    obtain ⟨q, hq, hqr⟩ := exists_mem_placed hr
    rw [h.holds_iff hp hq hqr]
    by_cases hs : hasSlack q.row = true
    · exact (h.within_iff_slack hp h1 hq hs margin).mpr (hbasic q.slack)
    · have hrel : q.row.relation = .eq := not_not.mp (mt hasSlack_eq_true.mpr hs)
      have ha : hasArtificial q.row = true := hasArtificial_eq_true.mpr (by rw [hrel]; decide)
      rw [Placed.Within, hrel]
      by_cases hd : ∃ d ∈ ds, d.basic = q.artificial
      · obtain ⟨d, hd, hb⟩ := hd
        rw [← hb, h.restore_basic hd, abs_neg]
        exact hgaps d hd
      · push Not at hd
        rw [restore_of_ne hd, basicSolution_of_not_basic
          (h.isBasic_eq_false ((fits_of_mem_placed hp hq).artificial ha).1), abs_zero]
        exact hm

end Program

end LinearProgram.Tableau

namespace LinearProgram.Simplex

open Tableau

/-! ## Runs -/

/-- The rows that a run drops between its phases. -/
def discarded (s : Settings ℚ) (deadline : Deadline) (p : DenseProgram ℚ) : List (BasicRow ℚ) :=
  if (ofProgram p).numArtificial = 0 then []
  else
    let t := (ascent s deadline p).tableau
    dropped s.tolerance t.rows.length
      { t with objective := t.price s.tolerance (ofProgram p).objective }

section Run

variable {s : Settings ℚ} (h0 : 0 ≤ s.tolerance) (deadline : Deadline) {p : DenseProgram ℚ}
  (hp : p.Rectangular)
include h0 hp

/-- The second phase starts from what is left of the program. -/
theorem remnant_ready :
    Remnant s.tolerance (ofProgram p) (ready s deadline p) (discarded s deadline p) := by
  have hstart := canonical_ofProgram hp
  unfold ready discarded
  by_cases hart : (ofProgram p).numArtificial = 0
  · rw [if_pos hart, if_pos hart]
    refine
      { canonical := hstart
        structural := fun r hr => ?_
        numVariables := rfl
        firstArtificial := rfl
        numColumns := rfl
        solves_iff := by simp
        detached := Detached.start 0 _
        small := by simp }
    have hlt := hstart.basic_lt r hr
    rwa [numColumns, hart, Nat.add_zero] at hlt
  · rw [if_neg hart, if_neg hart]
    obtain ⟨hcanonical, heq⟩ :=
      (hstart.primal_artificialObjective feasible_ofProgram).toCanonical.climb h0
        (ofProgram p).numColumns (deadline .first) s.maxPivots 0 false
    have hpriced := hcanonical.withObjective (hcanonical.length_price s.tolerance
      (hstart.width_objective.trans heq.numColumns.symm))
    have hwalk := expelling_expelArtificials hpriced h0
    have hdetached := hpriced.detached_expelArtificials h0
    exact
      { canonical := hwalk.canonical
        structural := hwalk.structural
        numVariables := hwalk.numVariables.trans heq.numVariables
        firstArtificial := hwalk.firstArtificial.trans heq.firstArtificial
        numColumns := hwalk.numColumns.trans heq.numColumns
        solves_iff := fun x => (heq.solves_iff x).symm.trans (hwalk.solves_iff x)
        detached := hdetached
        small := fun d hd j hj => hwalk.small d hd j (heq.firstArtificial ▸ hj) }

theorem remnant_summit :
    Remnant s.tolerance (ofProgram p) (summit s deadline p).tableau (discarded s deadline p) :=
  (remnant_ready h0 deadline hp).climb h0 _ _ _ _

end Run

/-! ## Answers -/

section Answer

variable {m : Model ℚ} (h : m.Accepted)
include h

/-- An answer with a point meets the model give or take a margin exactly when no right-hand side of the
last tableau is below the margin, negated, and the rows that were dropped hold there within it. -/
theorem meets_solve_iff {s : Settings ℚ} (h0 : 0 ≤ s.tolerance) (h1 : s.tolerance < 1)
    {clock : Clock ℚ} {limits : Limits ℚ} {margin : ℚ} (hm : 0 ≤ margin)
    (hpoint : (solve s clock m limits).objective?.isSome = true) :
    (solve s clock m limits).Meets m margin ↔
      (∀ r ∈ (summit s (deadline clock limits) m.dense).tableau.rows, -margin ≤ r.equation.rhs) ∧
        ∀ d ∈ discarded s (deadline clock limits) m.dense,
          |d.equation.gap (summit s (deadline clock limits) m.dense).tableau.basicSolution| ≤
            margin := by
  have hremnant := remnant_summit h0 (deadline clock limits) m.rectangular_dense
  obtain ⟨point, hsome⟩ := point?_of_objective? hpoint
  obtain ⟨-, rfl⟩ := reaches_of_point? hsome
  have hsolve : solve s clock m limits = _ := toSolution_of_point? hsome
  rw [hsolve, Solution.meets_atPoint_iff h.wellFormed, ← hremnant.meets_iff m.rectangular_dense h1 hm,
    valueAt_point hremnant.canonical (hremnant.numVariables.trans m.numVariables_dense),
    h.wellFormed.forall_assignment_iff (P := fun x => -margin ≤ x), m.numVariables_dense]
  exact and_congr Iff.rfl (m.forall_holds_dense _ margin).symm

/-- At the shipped tolerance an answer with a point meets the model give or take a millionth exactly when
that is true of the right-hand sides of the last tableau and of the rows that were dropped. -/
theorem shipped_meets_iff (clock : Clock ℚ) (limits : Limits ℚ)
    (hpoint : (solve .shipped clock m limits).objective?.isSome = true) :
    (solve .shipped clock m limits).Meets m (1 / 1000000) ↔
      (∀ r ∈ (summit .shipped (deadline clock limits) m.dense).tableau.rows,
          -(1 / 1000000) ≤ r.equation.rhs) ∧
        ∀ d ∈ discarded .shipped (deadline clock limits) m.dense,
          |d.equation.gap (summit .shipped (deadline clock limits) m.dense).tableau.basicSolution| ≤
            1 / 1000000 := by
  have htolerance : (Settings.shipped : Settings ℚ).tolerance = 1 / 1000000000 := by decide +kernel
  exact meets_solve_iff h (by rw [htolerance]; norm_num) (by rw [htolerance]; norm_num) (by norm_num)
    hpoint

end Answer

/-- Maximize `x` where `x + y = 1` and, once more, `2x + 2y = 2`. -/
def repeated : Model ℚ where
  vars := [⟨"x", .nonNegativeReals⟩, ⟨"y", .nonNegativeReals⟩]
  constraints :=
    [⟨"once", ⟨[⟨"x", 1⟩, ⟨"y", 1⟩]⟩, .eq, 1⟩, ⟨"twice", ⟨[⟨"x", 2⟩, ⟨"y", 2⟩]⟩, .eq, 2⟩]
  objective := ⟨⟨[⟨"x", 1⟩]⟩, .maximize⟩

theorem accepted_repeated : repeated.Accepted :=
  ⟨[.declare "x" .nonNegativeReals, .declare "y" .nonNegativeReals,
    .constrain "once" [("x", 1), ("y", 1)] .eq 1, .constrain "twice" [("x", 2), ("y", 2)] .eq 2,
    .pursue [("x", 1)] .maximize], rfl⟩

/-- The second equation is dropped, and holds all the same. -/
theorem shipped_meets_iff_repeated :
    repeated.Accepted ∧
      (solve .shipped (fun _ => .never) repeated .unset).objective?.isSome = true ∧
        (discarded .shipped .never repeated.dense).length = 1 ∧
          (solve .shipped (fun _ => .never) repeated .unset).Meets repeated (1 / 1000000) :=
  have hpoint : (solve .shipped (fun _ => .never) repeated .unset).objective?.isSome = true := by
    decide +kernel
  ⟨accepted_repeated, hpoint, by decide +kernel,
    (shipped_meets_iff accepted_repeated (fun _ => .never) .unset hpoint).mpr
      ⟨by decide +kernel, by decide +kernel⟩⟩

/-- Maximize `x` where `x ≤ 1 + 2⁻³¹` and `2³⁰ x ≤ 2³⁰`. -/
def nearlyTied : Model ℚ where
  vars := [⟨"x", .nonNegativeReals⟩]
  constraints :=
    [⟨"near", ⟨[⟨"x", 1⟩]⟩, .le, 1 + 1 / 2 ^ 31⟩, ⟨"scaled", ⟨[⟨"x", 2 ^ 30⟩]⟩, .le, 2 ^ 30⟩]
  objective := ⟨⟨[⟨"x", 1⟩]⟩, .maximize⟩

theorem accepted_nearlyTied : nearlyTied.Accepted :=
  ⟨[.declare "x" .nonNegativeReals, .constrain "near" [("x", 1)] .le (1 + 1 / 2 ^ 31),
    .constrain "scaled" [("x", 2 ^ 30)] .le (2 ^ 30), .pursue [("x", 1)] .maximize], rfl⟩

/-- The ratios of the two rows differ by less than the tolerance and the first row leaves, so that the
second constraint is exceeded by a half. -/
theorem nearlyTied_not_meets :
    nearlyTied.Accepted ∧
      (solve .shipped (fun _ => .never) nearlyTied .unset).status = .optimal ∧
        (solve .shipped (fun _ => .never) nearlyTied .unset).activity? "scaled" =
            some (2 ^ 30 + 1 / 2) ∧
          ¬(solve .shipped (fun _ => .never) nearlyTied .unset).Meets nearlyTied (1 / 1000000) := by
  have hactivity : (solve .shipped (fun _ => .never) nearlyTied .unset).activity? "scaled" =
      some (2 ^ 30 + 1 / 2) := by
    decide +kernel
  refine ⟨accepted_nearlyTied, by decide +kernel, hactivity, ?_⟩
  intro hmeets
  obtain ⟨a, ha, hholds⟩ := hmeets.activities ⟨"scaled", ⟨[⟨"x", 2 ^ 30⟩]⟩, .le, 2 ^ 30⟩ (by
    simp [nearlyTied])
  rw [hactivity] at ha
  rw [← Option.some.inj ha, Relation.holds_le] at hholds
  norm_num at hholds

end LinearProgram.Simplex
