import Mathlib
import LinearProgram.Proofs.Model.Construction
import LinearProgram.Proofs.Model.Feasibility
import LinearProgram.Proofs.Simplex.Stages

/-!
# How close the ratio test comes to the smallest ratio

In the ratio test a row whose ratio is larger, by at most the tolerance, takes the place of the best one
when its basic variable comes first, and from then on its ratio is what the others are compared with. So
the ratio can climb by the tolerance at every competing row (`ratio_winner?_le`), and there are rows for
which it does (`winner?_ladder`).

The test finds a row within the tolerance of the smallest ratio, and the one whose basic variable comes
first, when no ratio lies within the tolerance of one that is near the smallest without being near the
smallest itself (`Clustered`). Where some ratio does, there is an order of the rows and a numbering of
the columns for which the test goes wrong, so no weaker condition on the ratios would do.
-/

namespace LinearProgram.Tableau

variable {t : Tableau ℚ} {tolerance : ℚ} {col : ℕ}

/-! ## How far the ratio can climb -/

/-- The number of competing rows. -/
def numCompeting (tolerance : ℚ) (col : ℕ) (rows : List (BasicRow ℚ)) : ℕ :=
  rows.countP fun r => Competes tolerance col r

theorem numCompeting_append (rows : List (BasicRow ℚ)) (r : BasicRow ℚ) :
    numCompeting tolerance col (rows ++ [r]) =
      numCompeting tolerance col rows + if Competes tolerance col r then 1 else 0 := by
  simp [numCompeting, List.countP_append, List.countP_singleton]

theorem numCompeting_pos {rows : List (BasicRow ℚ)} {r : BasicRow ℚ} (hr : r ∈ rows)
    (hcomp : Competes tolerance col r) : 0 < numCompeting tolerance col rows :=
  List.countP_pos_iff.mpr ⟨r, hr, decide_eq_true hcomp⟩

/-- The ratio of the winner exceeds no competing one by more than the tolerance for each competing row
but one. -/
theorem ratio_winner?_le (h0 : 0 ≤ tolerance) {rows : List (BasicRow ℚ)} {best : BasicRow ℚ}
    (h : winner? tolerance col rows = some best) {q : BasicRow ℚ} (hq : q ∈ rows)
    (hcomp : Competes tolerance col q) :
    ratio col best ≤ ratio col q + (numCompeting tolerance col rows - 1) * tolerance := by
  induction rows using List.reverseRecOn generalizing best with
  | nil => exact absurd hq List.not_mem_nil
  | append_singleton rows r ih =>
    rw [List.mem_append, List.mem_singleton] at hq
    rw [numCompeting_append]
    rcases winner?_append_eq_some h with ⟨hbest, hkeep⟩ | ⟨rfl, hr, htake⟩
    · -- the winner stays: only a further row that is nearly as good can come to it
      rcases hq with hq | rfl
      · have hle := ih hbest hq
        split
        · push_cast
          linarith
        · exact hle
      · have hge := (not_or.mp (hkeep.resolve_left (not_not.mpr hcomp))).1
        obtain ⟨hmem, hbestcomp⟩ := mem_of_winner?_eq_some hbest
        have hone : (1 : ℚ) ≤ numCompeting tolerance col rows := by
          exact_mod_cast numCompeting_pos hmem hbestcomp
        have htol := mul_le_mul_of_nonneg_right hone h0
        rw [if_pos hcomp]
        push_cast
        linarith
    · rw [if_pos hr]
      push_cast
      rcases hq with hq | rfl
      · -- the winner before was as close as it may be, and one tolerance is added
        obtain ⟨b, hb⟩ := exists_winner? hq hcomp
        have hle := ih hb hq
        have hstep := (htake b hb).ratio_le h0
        linarith
      · have hnonneg := mul_nonneg (Nat.cast_nonneg (α := ℚ) (numCompeting tolerance col rows)) h0
        linarith

/-! ### Rows for which it climbs that far -/

/-- A row with ratio `k * tolerance` in column zero, with one basic variable for each of them, in the
opposite order. -/
def rung (tolerance : ℚ) (n k : ℕ) : BasicRow ℚ :=
  ⟨n - k, ⟨[1], k * tolerance⟩⟩

@[simp]
theorem ratio_rung (n k : ℕ) : ratio 0 (rung tolerance n k) = k * tolerance :=
  div_one _

theorem competes_rung (h0 : 0 ≤ tolerance) (h1 : tolerance < 1) (n k : ℕ) :
    Competes tolerance 0 (rung tolerance n k) := by
  refine ⟨h1, ?_⟩
  rw [ratio_rung]
  positivity

/-- On a ladder of ratios the winner is the last rung, though the first one has the smallest ratio. -/
theorem winner?_ladder (h0 : 0 ≤ tolerance) (h1 : tolerance < 1) {n k : ℕ} (hk : k ≤ n) :
    winner? tolerance 0 ((List.range (k + 1)).map (rung tolerance n)) = some (rung tolerance n k) := by
  induction k with
  | zero => exact challenge_none (competes_rung h0 h1 n 0)
  | succ k ih =>
    rw [List.range_succ, List.map_append, List.map_singleton, winner?_append, ih (by omega),
      challenge_some (competes_rung h0 h1 n (k + 1)), if_pos]
    refine .inr ⟨?_, ?_⟩
    · rw [ratio_rung, ratio_rung]
      push_cast
      linarith
    · show n - (k + 1) < n - k
      omega

/-! ## Rows of smallest ratio -/

/-- A competing row of smallest ratio. -/
structure Least (tolerance : ℚ) (col : ℕ) (rows : List (BasicRow ℚ)) (s : BasicRow ℚ) : Prop where
  mem : s ∈ rows
  competes : Competes tolerance col s
  ratio_le : ∀ q ∈ rows, Competes tolerance col q → ratio col s ≤ ratio col q

instance {rows : List (BasicRow ℚ)} {s : BasicRow ℚ} : Decidable (Least tolerance col rows s) :=
  decidable_of_iff (s ∈ rows ∧ Competes tolerance col s ∧
      ∀ q ∈ rows, Competes tolerance col q → ratio col s ≤ ratio col q)
    ⟨fun ⟨h1, h2, h3⟩ => ⟨h1, h2, h3⟩, fun h => ⟨h.mem, h.competes, h.ratio_le⟩⟩

/-- What the ratio test is for: no row leaves only where none competes, and a row that leaves competes,
exceeds the smallest ratio by at most the tolerance, and has no row of smallest ratio before it by basic
variable. -/
def FindsLeast (tolerance : ℚ) (col : ℕ) (t : Tableau ℚ) : Prop :=
  (t.leaving? tolerance col = none ↔ ∀ r ∈ t.rows, ¬Competes tolerance col r) ∧
    ∀ row, t.leaving? tolerance col = some row →
      ∃ r, t.rows[row]? = some r ∧ Competes tolerance col r ∧
        ∀ s, Least tolerance col t.rows s → ratio col r ≤ ratio col s + tolerance ∧ r.basic ≤ s.basic

/-- Whether the test finds a row of smallest ratio is up to the winner. -/
theorem findsLeast_iff : FindsLeast tolerance col t ↔
    ∀ r, winner? tolerance col t.rows = some r →
      ∀ s, Least tolerance col t.rows s →
        ratio col r ≤ ratio col s + tolerance ∧ r.basic ≤ s.basic := by
  constructor
  · rintro ⟨-, h⟩ r hr
    cases hrow : t.leaving? tolerance col with
    | none => exact absurd (hr.symm.trans (leaving?_eq_none_iff_winner?.mp hrow)) (by simp)
    | some row =>
      obtain ⟨r', hr', -, hleast⟩ := h row hrow
      obtain ⟨best, hbest, -, hwin⟩ := winner?_of_leaving? hrow
      rw [hr'] at hbest
      rw [hr] at hwin
      rwa [Option.some.inj hwin, ← Option.some.inj hbest]
  · refine fun h => ⟨leaving?_eq_none_iff, fun row hrow => ?_⟩
    obtain ⟨r, hr, hcomp, hwin⟩ := winner?_of_leaving? hrow
    exact ⟨r, hr, hcomp, h r hwin⟩

instance : Decidable (FindsLeast tolerance col t) :=
  decidable_of_iff (∀ r ∈ winner? tolerance col t.rows, ∀ s ∈ t.rows, Least tolerance col t.rows s →
      ratio col r ≤ ratio col s + tolerance ∧ r.basic ≤ s.basic)
    (findsLeast_iff.trans ⟨fun h r hr s _ hs => h r hr s hs, fun h r hr s hs => h r hr s hs.mem hs⟩).symm

/-! ### Clusters of ratios -/

/-- No competing ratio is within the tolerance of one that is near the smallest without being near the
smallest itself. -/
def Clustered (tolerance : ℚ) (col : ℕ) (rows : List (BasicRow ℚ)) : Prop :=
  ∀ s, Least tolerance col rows s → ∀ p ∈ rows, Competes tolerance col p →
    ratio col p ≤ ratio col s + tolerance → ∀ q ∈ rows, Competes tolerance col q →
      ratio col q ≤ ratio col p + tolerance → ratio col q ≤ ratio col s + tolerance

instance {rows : List (BasicRow ℚ)} : Decidable (Clustered tolerance col rows) :=
  decidable_of_iff (∀ s ∈ rows, Least tolerance col rows s → ∀ p ∈ rows, Competes tolerance col p →
      ratio col p ≤ ratio col s + tolerance → ∀ q ∈ rows, Competes tolerance col q →
        ratio col q ≤ ratio col p + tolerance → ratio col q ≤ ratio col s + tolerance)
    ⟨fun h s hs => h s hs.mem hs, fun h s _ hs => h s hs⟩

/-- Without a tolerance ratios are always clustered. -/
theorem clustered_zero (rows : List (BasicRow ℚ)) : Clustered 0 col rows := by
  intro s _ p _ _ hp q _ _ hq
  rw [add_zero] at hp hq ⊢
  exact hq.trans hp

/-- Ratios that are equal or further apart than the tolerance are clustered. -/
theorem clustered_of_apart (h0 : 0 ≤ tolerance) {rows : List (BasicRow ℚ)}
    (h : ∀ p ∈ rows, ∀ q ∈ rows, Competes tolerance col p → Competes tolerance col q →
      Apart tolerance (ratio col q) (ratio col p)) : Clustered tolerance col rows := by
  intro s hs p hp hpc hps q hq hqc hqp
  rw [(h p hp q hq hpc hqc).le_add_iff h0] at hqp
  exact hqp.trans hps

/-- Where the ratios near the smallest one, `m`, are not within the tolerance of others, the winner is
near it as soon as one row is, and comes before all of these by basic variable. -/
theorem winner?_near {m : ℚ} {rows : List (BasicRow ℚ)}
    (hm : ∀ q ∈ rows, Competes tolerance col q → m ≤ ratio col q)
    (hgap : ∀ p ∈ rows, Competes tolerance col p → ratio col p ≤ m + tolerance →
      ∀ q ∈ rows, Competes tolerance col q → ratio col q ≤ ratio col p + tolerance →
        ratio col q ≤ m + tolerance)
    {best : BasicRow ℚ} (h : winner? tolerance col rows = some best) {q : BasicRow ℚ} (hq : q ∈ rows)
    (hcomp : Competes tolerance col q) (hnear : ratio col q ≤ m + tolerance) :
    ratio col best ≤ m + tolerance ∧ best.basic ≤ q.basic := by
  induction rows using List.reverseRecOn generalizing best q with
  | nil => exact absurd hq List.not_mem_nil
  | append_singleton rows r ih =>
    have hold {p : BasicRow ℚ} (hp : p ∈ rows) : p ∈ rows ++ [r] := List.mem_append_left _ hp
    have hlast : r ∈ rows ++ [r] := List.mem_append_right _ (List.mem_singleton_self r)
    have ih' {best : BasicRow ℚ} (h : winner? tolerance col rows = some best) {q : BasicRow ℚ}
        (hq : q ∈ rows) (hcomp : Competes tolerance col q) (hnear : ratio col q ≤ m + tolerance) :=
      ih (fun q hq => hm q (hold hq))
        (fun p hp hpc hpm q hq => hgap p (hold hp) hpc hpm q (hold hq)) h hq hcomp hnear
    rw [List.mem_append, List.mem_singleton] at hq
    rcases winner?_append_eq_some h with ⟨hbest, hkeep⟩ | ⟨rfl, hr, htake⟩
    · rcases hq with hq | rfl
      · exact ih' hbest hq hcomp hnear
      · -- a row near the smallest ratio that does not win has a winner near it, which comes first
        obtain ⟨hge, hnot⟩ := not_or.mp (hkeep.resolve_left (not_not.mpr hcomp))
        obtain ⟨hmem, hbestcomp⟩ := mem_of_winner?_eq_some hbest
        have hbestm := hm best (hold hmem) hbestcomp
        refine ⟨hgap _ hlast hcomp hnear best (hold hmem) hbestcomp (by linarith), ?_⟩
        exact not_lt.mp fun hlt => hnot ⟨by linarith, hlt⟩
    · rcases hq with hq | rfl
      · -- a winner near the smallest ratio is beaten by another such row only
        obtain ⟨b, hb⟩ := exists_winner? hq hcomp
        obtain ⟨hbm, hbasic⟩ := ih' hb hq hcomp hnear
        obtain ⟨hmem, hbcomp⟩ := mem_of_winner?_eq_some hb
        rcases htake b hb with hlt | ⟨hle, hfirst⟩
        · have hbestm := hm best hlast hr
          linarith
        · exact ⟨hgap b (hold hmem) hbcomp hbm best hlast hr hle, hfirst.le.trans hbasic⟩
      · exact ⟨hnear, le_rfl⟩

/-- Where ratios are clustered, the winner is near the smallest ratio and comes before every other row
that is. -/
theorem Clustered.winner?_near {rows : List (BasicRow ℚ)} (h : Clustered tolerance col rows)
    (h0 : 0 ≤ tolerance) {r : BasicRow ℚ} (hr : winner? tolerance col rows = some r)
    {s : BasicRow ℚ} (hs : Least tolerance col rows s) : ratio col r ≤ ratio col s + tolerance ∧
      ∀ q ∈ rows, Competes tolerance col q → ratio col q ≤ ratio col s + tolerance →
        r.basic ≤ q.basic := by
  have hnear {q : BasicRow ℚ} := Tableau.winner?_near hs.ratio_le (h s hs) hr (q := q)
  exact ⟨(hnear hs.mem hs.competes (le_add_of_nonneg_right h0)).1,
    fun q hq hcomp hqs => (hnear hq hcomp hqs).2⟩

/-- Where ratios are clustered, the test finds a row of smallest ratio. -/
theorem Clustered.findsLeast (h : Clustered tolerance col t.rows) (h0 : 0 ≤ tolerance) :
    FindsLeast tolerance col t := by
  rw [findsLeast_iff]
  intro r hr s hs
  obtain ⟨hratio, hfirst⟩ := h.winner?_near h0 hr hs
  exact ⟨hratio, hfirst s hs.mem hs.competes (le_add_of_nonneg_right h0)⟩

/-! ### Other orders and other numberings -/

/-- The same equations, in some order and with some distinct basic variables. -/
structure Rearranged (rows rows' : List (BasicRow ℚ)) : Prop where
  equations : (rows'.map BasicRow.equation).Perm (rows.map BasicRow.equation)
  distinct : (rows'.map BasicRow.basic).Nodup

/-- The rows with the basic variables `k`, `k + 1` and so on. -/
def numbered (k : ℕ) (rows : List (BasicRow ℚ)) : List (BasicRow ℚ) :=
  (rows.zipIdx k).map fun q => ⟨q.2, q.1.equation⟩

theorem map_basic_numbered (k : ℕ) (rows : List (BasicRow ℚ)) :
    (numbered k rows).map BasicRow.basic = List.range' k rows.length := by
  rw [numbered, List.map_map, ← List.zipIdx_map_snd]
  rfl

theorem map_equation_numbered (k : ℕ) (rows : List (BasicRow ℚ)) :
    (numbered k rows).map BasicRow.equation = rows.map BasicRow.equation := by
  rw [numbered, List.map_map]
  conv_rhs => rw [← List.zipIdx_map_fst k rows, List.map_map]
  rfl

theorem le_basic_of_mem_numbered {k : ℕ} {rows : List (BasicRow ℚ)} {r : BasicRow ℚ}
    (hr : r ∈ numbered k rows) : k ≤ r.basic := by
  have hmem := List.mem_map_of_mem (f := BasicRow.basic) hr
  rw [map_basic_numbered] at hmem
  exact (List.mem_range'_1.mp hmem).1

/-- A row of smallest ratio is one in every order and under every numbering. -/
theorem Least.rearranged {rows rows' : List (BasicRow ℚ)} (hrows : Rearranged rows rows')
    {s s' : BasicRow ℚ} (hs : Least tolerance col rows s) (hs' : s' ∈ rows')
    (heq : s'.equation = s.equation) : Least tolerance col rows' s' where
  mem := hs'
  competes := by
    unfold Competes ratio
    rw [heq]
    exact hs.competes
  ratio_le q' hq' hcomp := by
    obtain ⟨q, hq, hqq⟩ := List.mem_map.mp
      (hrows.equations.mem_iff.mp (List.mem_map_of_mem (f := BasicRow.equation) hq'))
    unfold Competes ratio at hcomp
    rw [← hqq] at hcomp
    unfold ratio
    rw [heq, ← hqq]
    exact hs.ratio_le q hq hcomp

/-- Three equations at the end of others, where a later one of the three comes first by basic
variable. -/
def arranged (others : List (BasicRow ℚ)) (s p q : BasicRow ℚ) : List (BasicRow ℚ) :=
  numbered 3 others ++ [⟨2, s.equation⟩] ++ [⟨1, p.equation⟩] ++ [⟨0, q.equation⟩]

theorem rearranged_arranged {rows others : List (BasicRow ℚ)} {s p q : BasicRow ℚ}
    (h : (s :: p :: q :: others).Perm rows) : Rearranged rows (arranged others s p q) where
  equations := by
    refine List.Perm.trans ?_ (h.map BasicRow.equation)
    simp only [arranged, List.map_append, map_equation_numbered, List.append_assoc]
    exact List.perm_append_comm
  distinct := by
    simp only [arranged, List.map_append, map_basic_numbered, List.append_assoc]
    exact List.nodup_append.mpr ⟨List.nodup_range', by simp, by simp; omega⟩

/-- The test goes from the second row to the third, which is within the tolerance of it, and from the
first to the second in the same way. -/
theorem winner?_arranged (h0 : 0 ≤ tolerance) {others : List (BasicRow ℚ)} {s p q : BasicRow ℚ}
    (hs : Least tolerance col (arranged others s p q) ⟨2, s.equation⟩)
    (hp : Competes tolerance col p) (hps : ratio col p ≤ ratio col s + tolerance)
    (hq : Competes tolerance col q) (hqp : ratio col q ≤ ratio col p + tolerance) :
    winner? tolerance col (arranged others s p q) = some ⟨0, q.equation⟩ := by
  have hfirst : winner? tolerance col (numbered 3 others ++ [⟨2, s.equation⟩]) =
      some ⟨2, s.equation⟩ := by
    refine winner?_append_of_beats hs.competes fun b hb => .inr ⟨?_, ?_⟩
    · obtain ⟨hmem, hcomp⟩ := mem_of_winner?_eq_some hb
      exact (hs.ratio_le b (by simp [arranged, hmem]) hcomp).trans (le_add_of_nonneg_right h0)
    · exact le_basic_of_mem_numbered (mem_of_winner?_eq_some hb).1
  have hsecond : winner? tolerance col
      (numbered 3 others ++ [⟨2, s.equation⟩] ++ [⟨1, p.equation⟩]) = some ⟨1, p.equation⟩ := by
    refine winner?_append_of_beats hp fun b hb => .inr ?_
    rw [hfirst] at hb
    rw [← Option.some.inj hb]
    exact ⟨hps, Nat.one_lt_two⟩
  refine winner?_append_of_beats hq fun b hb => .inr ?_
  rw [hsecond] at hb
  rw [← Option.some.inj hb]
  exact ⟨hqp, Nat.one_pos⟩

/-- Where ratios are not clustered, the test misses the smallest ratio in some order of the rows and
some numbering of the columns. -/
theorem exists_rearranged_not_findsLeast (h0 : 0 ≤ tolerance)
    (h : ¬Clustered tolerance col t.rows) :
    ∃ rows, Rearranged t.rows rows ∧ ¬FindsLeast tolerance col { t with rows := rows } := by
  simp only [Clustered, not_forall, not_le] at h
  obtain ⟨s, hs, p, hp, hpc, hps, q, hq, hqc, hqp, hqs⟩ := h
  -- the three rows have different ratios
  have hsp : s ≠ p := by
    rintro rfl
    exact absurd hqp (not_le.mpr hqs)
  have hpq : p ≠ q := by
    rintro rfl
    exact absurd hps (not_le.mpr hqs)
  have hsq : s ≠ q := by
    rintro rfl
    linarith [hs.ratio_le p hp hpc]
  have hperm : (s :: p :: q :: ((t.rows.erase s).erase p).erase q).Perm t.rows := by
    refine ((List.perm_cons_erase hs.mem).trans (List.Perm.cons s ?_)).symm
    refine (List.perm_cons_erase ((List.mem_erase_of_ne hsp.symm).mpr hp)).trans (List.Perm.cons p ?_)
    exact List.perm_cons_erase
      ((List.mem_erase_of_ne hpq.symm).mpr ((List.mem_erase_of_ne hsq.symm).mpr hq))
  have hrearranged := rearranged_arranged hperm
  have hleast : Least tolerance col (arranged (((t.rows.erase s).erase p).erase q) s p q)
      ⟨2, s.equation⟩ := hs.rearranged hrearranged (by simp [arranged]) rfl
  refine ⟨_, hrearranged, fun hfinds => ?_⟩
  have hwin := winner?_arranged h0 hleast hpc hps hqc hqp
  exact absurd (findsLeast_iff.mp hfinds _ hwin _ hleast).1 (not_le.mpr hqs)

/-- **The ratio test and the smallest ratio.** No row leaves only where none competes, and a row that
leaves competes and exceeds no competing ratio by more than the tolerance for each competing row but one.
Where ratios are clustered, its ratio exceeds the smallest by at most the tolerance and no row of smallest
ratio comes before it; where they are not, there are an order of the rows and distinct basic variables
for which that fails. -/
theorem leaving_row_near_least (h0 : 0 ≤ tolerance) (t : Tableau ℚ) (col : ℕ) :
    (t.leaving? tolerance col = none ↔ ∀ r ∈ t.rows, ¬Competes tolerance col r) ∧
      (∀ row, t.leaving? tolerance col = some row →
        ∃ r, t.rows[row]? = some r ∧ Competes tolerance col r ∧
          ∀ q ∈ t.rows, Competes tolerance col q →
            ratio col r ≤ ratio col q + (numCompeting tolerance col t.rows - 1) * tolerance) ∧
      (Clustered tolerance col t.rows → FindsLeast tolerance col t) ∧
      (¬Clustered tolerance col t.rows →
        ∃ rows, Rearranged t.rows rows ∧ ¬FindsLeast tolerance col { t with rows := rows }) := by
  refine ⟨leaving?_eq_none_iff, ?_, fun h => h.findsLeast h0, exists_rearranged_not_findsLeast h0⟩
  intro row hrow
  obtain ⟨r, hr, hcomp, hwin⟩ := winner?_of_leaving? hrow
  exact ⟨r, hr, hcomp, fun q hq hqc => ratio_winner?_le h0 hwin hq hqc⟩

/-- The rows of `x ≤ 0` and `x + y ≤ 0`, where the slack of the second comes before that of the
first. -/
def tied : Tableau ℚ where
  rows := [⟨3, ⟨[1, 0, 0, 1], 0⟩⟩, ⟨2, ⟨[1, 1, 1, 0], 0⟩⟩]
  objective := ⟨[1, 0, 0, 0], 0⟩
  numVariables := 2
  numSlack := 2
  numArtificial := 0

/-- Of two rows with the same ratio the second one leaves, which comes first by basic variable. -/
theorem leaving_row_near_least_tied : (0 : ℚ) ≤ 1 / 1000000000 ∧
    Clustered (1 / 1000000000) 0 tied.rows ∧ tied.leaving? (1 / 1000000000) 0 = some 1 ∧
      FindsLeast (1 / 1000000000) 0 tied :=
  have hclustered : Clustered (1 / 1000000000) 0 tied.rows := by decide +kernel
  ⟨by norm_num, hclustered, by decide +kernel,
    (leaving_row_near_least (by norm_num) tied 0).2.2.1 hclustered⟩

end LinearProgram.Tableau

namespace LinearProgram.Simplex

open Tableau

/-! ## A run that the climbing ratio leads astray -/

/-- Maximize `2x + 2y + z` where `1024z ≤ 8192`, `y + z/8 ≤ 1 + 2⁻³⁴` and `x + z/8 ≤ 1 + 3·2⁻³⁴`. -/
def sliding : Model ℚ where
  vars := [⟨"x", .nonNegativeReals⟩, ⟨"y", .nonNegativeReals⟩, ⟨"z", .nonNegativeReals⟩]
  constraints :=
    [⟨"low", ⟨[⟨"z", 1024⟩]⟩, .le, 8192⟩,
      ⟨"middle", ⟨[⟨"y", 1⟩, ⟨"z", 1 / 8⟩]⟩, .le, 1 + 1 / 2 ^ 34⟩,
      ⟨"high", ⟨[⟨"x", 1⟩, ⟨"z", 1 / 8⟩]⟩, .le, 1 + 3 / 2 ^ 34⟩]
  objective := ⟨⟨[⟨"x", 2⟩, ⟨"y", 2⟩, ⟨"z", 1⟩]⟩, .maximize⟩

/-- The same with `z/8 ≤ 1 + 2⁻³⁵`. -/
def recoiling : Model ℚ :=
  { sliding with
    constraints := sliding.constraints ++ [⟨"between", ⟨[⟨"z", 1 / 8⟩]⟩, .le, 1 + 1 / 2 ^ 35⟩] }

theorem accepted_sliding : sliding.Accepted :=
  ⟨[.declare "x" .nonNegativeReals, .declare "y" .nonNegativeReals, .declare "z" .nonNegativeReals,
    .constrain "low" [("z", 1024)] .le 8192,
    .constrain "middle" [("y", 1), ("z", 1 / 8)] .le (1 + 1 / 2 ^ 34),
    .constrain "high" [("x", 1), ("z", 1 / 8)] .le (1 + 3 / 2 ^ 34),
    .pursue [("x", 2), ("y", 2), ("z", 1)] .maximize], rfl⟩

theorem accepted_recoiling : recoiling.Accepted :=
  ⟨[.declare "x" .nonNegativeReals, .declare "y" .nonNegativeReals, .declare "z" .nonNegativeReals,
    .constrain "low" [("z", 1024)] .le 8192,
    .constrain "middle" [("y", 1), ("z", 1 / 8)] .le (1 + 1 / 2 ^ 34),
    .constrain "high" [("x", 1), ("z", 1 / 8)] .le (1 + 3 / 2 ^ 34),
    .constrain "between" [("z", 1 / 8)] .le (1 + 1 / 2 ^ 35),
    .pursue [("x", 2), ("y", 2), ("z", 1)] .maximize], rfl⟩

/-- The tableau that the second phase at the shipped tolerance comes to after two pivots. -/
def afterTwo (m : Model ℚ) : Tableau ℚ :=
  ((secondStage .shipped .never m.dense).after (Settings.shipped : Settings ℚ).tolerance
    (ofProgram m.dense).firstArtificial 2).tableau

/-- In the first run the row that leaves exceeds the smallest ratio by more than the tolerance, so that a
constraint is exceeded by more than a millionth, where a pivot on one of the other two rows would have
kept every right-hand side above that. In the second the row that leaves is within the tolerance, but
the row of smallest ratio comes before it. -/
theorem shipped_misses_least :
    (sliding.Accepted ∧
        (afterTwo sliding).rows.map (fun r => (r.basic, ratio 2 r)) =
          [(3, 8), (1, 8 + 1 / 2 ^ 31), (0, 8 + 3 / 2 ^ 31)] ∧
        (afterTwo sliding).leaving? (1 / 1000000000) 2 = some 2 ∧
        ¬FindsLeast (1 / 1000000000) 2 (afterTwo sliding) ∧
        (∀ row ∈ [0, 1], ∀ r ∈ ((afterTwo sliding).pivot row 2).rows,
          -(1 / 1000000) ≤ r.equation.rhs) ∧
        (solve .shipped (fun _ => .never) sliding .unset).activity? "low" =
          some (8192 + 3 / 2 ^ 21)) ∧
      recoiling.Accepted ∧
        (afterTwo recoiling).rows.map (fun r => (r.basic, ratio 2 r)) =
          [(3, 8), (1, 8 + 1 / 2 ^ 31), (0, 8 + 3 / 2 ^ 31), (6, 8 + 1 / 2 ^ 32)] ∧
        (afterTwo recoiling).leaving? (1 / 1000000000) 2 = some 3 ∧
        ¬FindsLeast (1 / 1000000000) 2 (afterTwo recoiling) :=
  ⟨⟨accepted_sliding, by decide +kernel, by decide +kernel, by decide +kernel, by decide +kernel,
      by decide +kernel⟩,
    accepted_recoiling, by decide +kernel, by decide +kernel, by decide +kernel⟩

end LinearProgram.Simplex
