import Mathlib
import LinearProgram.Proofs.Simplex.Canonical

/-!
# The ratio test as a contest of rows

The ratio test keeps the best row so far and compares the next one with it. What it keeps is a candidate,
which has the row's ratio, basic variable and place (`ratioStep`). Here the same contest is written on the
rows themselves (`winner?`): the leaving row is the winner (`winner?_of_leaving?`), so that what is said of
it can be proved by how a row becomes the winner (`winner?_append_eq_some`).
-/

namespace LinearProgram.Tableau

variable {t : Tableau ℚ} {tolerance : ℚ} {col : ℕ}

/-! ## Rows against each other -/

/-- The ratio that the ratio test compares. -/
def ratio (col : ℕ) (r : BasicRow ℚ) : ℚ :=
  r.equation.rhs / r.equation.entry col

/-- What decides between competing rows: the ratio, then the basic variable. -/
def rank (col : ℕ) (r : BasicRow ℚ) : ℚ ×ₗ ℕ :=
  toLex (ratio col r, r.basic)

/-- The rows that take part in the ratio test. -/
def Competes (tolerance : ℚ) (col : ℕ) (r : BasicRow ℚ) : Prop :=
  tolerance < r.equation.entry col ∧ 0 ≤ ratio col r

instance {col : ℕ} {r : BasicRow ℚ} : Decidable (Competes tolerance col r) :=
  inferInstanceAs (Decidable (_ ∧ _))

/-- Whether a row takes the place of the best one so far: its ratio is smaller by more than the
tolerance, or it is larger by at most the tolerance and the basic variable comes first. -/
def Beats (tolerance : ℚ) (col : ℕ) (r best : BasicRow ℚ) : Prop :=
  ratio col r < ratio col best - tolerance ∨
    ratio col r ≤ ratio col best + tolerance ∧ r.basic < best.basic

instance {r best : BasicRow ℚ} : Decidable (Beats tolerance col r best) :=
  inferInstanceAs (Decidable (_ ∨ _))

/-- A row that beats another has a ratio that is larger by at most the tolerance. -/
theorem Beats.ratio_le {r best : BasicRow ℚ} (h : Beats tolerance col r best) (h0 : 0 ≤ tolerance) :
    ratio col r ≤ ratio col best + tolerance := by
  rcases h with hlt | ⟨hle, -⟩
  · linarith
  · exact hle

/-- Without a tolerance a row beats another when it comes before it by rank. -/
theorem beats_zero {r best : BasicRow ℚ} : Beats 0 col r best ↔ rank col r < rank col best := by
  rw [Beats, sub_zero, add_zero, rank, rank, Prod.Lex.toLex_lt_toLex]
  constructor
  · rintro (hlt | ⟨hle, hbasic⟩)
    · exact .inl hlt
    · exact (lt_or_eq_of_le hle).imp_right fun heq => ⟨heq, hbasic⟩
  · rintro (hlt | ⟨heq, hbasic⟩)
    · exact .inl hlt
    · exact .inr ⟨heq.le, hbasic⟩

/-! ## The winner -/

/-- The best row after one more row. -/
def challenge (tolerance : ℚ) (col : ℕ) (best? : Option (BasicRow ℚ)) (r : BasicRow ℚ) :
    Option (BasicRow ℚ) :=
  if Competes tolerance col r then
    match best? with
    | none => some r
    | some best => if Beats tolerance col r best then some r else some best
  else best?

theorem challenge_of_not_competes {r : BasicRow ℚ} (h : ¬Competes tolerance col r)
    (best? : Option (BasicRow ℚ)) : challenge tolerance col best? r = best? :=
  if_neg h

theorem challenge_none {r : BasicRow ℚ} (h : Competes tolerance col r) :
    challenge tolerance col none r = some r :=
  if_pos h

theorem challenge_some {r : BasicRow ℚ} (h : Competes tolerance col r) (best : BasicRow ℚ) :
    challenge tolerance col (some best) r =
      if Beats tolerance col r best then some r else some best :=
  if_pos h

/-- The row that the ratio test ends with. -/
def winner? (tolerance : ℚ) (col : ℕ) (rows : List (BasicRow ℚ)) : Option (BasicRow ℚ) :=
  rows.foldl (challenge tolerance col) none

theorem winner?_append (rows : List (BasicRow ℚ)) (r : BasicRow ℚ) :
    winner? tolerance col (rows ++ [r]) = challenge tolerance col (winner? tolerance col rows) r :=
  List.foldl_append

/-- How a row became the winner: it was, and the last row does not compete or does not beat it; or it is
the last row itself, and beats the winner before, if there was one. -/
theorem winner?_append_eq_some {rows : List (BasicRow ℚ)} {r best : BasicRow ℚ}
    (h : winner? tolerance col (rows ++ [r]) = some best) :
    winner? tolerance col rows = some best ∧
        (¬Competes tolerance col r ∨ ¬Beats tolerance col r best) ∨
      best = r ∧ Competes tolerance col r ∧
        ∀ b, winner? tolerance col rows = some b → Beats tolerance col r b := by
  rw [winner?_append] at h
  by_cases hr : Competes tolerance col r
  · cases hb : winner? tolerance col rows with
    | none =>
      rw [hb, challenge_none hr] at h
      exact .inr ⟨(Option.some.inj h).symm, hr, fun b hb => absurd hb (by simp)⟩
    | some b =>
      rw [hb, challenge_some hr] at h
      split at h
      · next hbeats =>
        refine .inr ⟨(Option.some.inj h).symm, hr, fun b' hb' => ?_⟩
        rwa [← Option.some.inj hb']
      · next hbeats =>
        rw [← Option.some.inj h]
        exact .inl ⟨rfl, .inr hbeats⟩
  · rw [challenge_of_not_competes hr] at h
    exact .inl ⟨h, .inl hr⟩

/-- The winner is one of the rows, and competes. -/
theorem mem_of_winner?_eq_some {rows : List (BasicRow ℚ)} {best : BasicRow ℚ}
    (h : winner? tolerance col rows = some best) : best ∈ rows ∧ Competes tolerance col best := by
  induction rows using List.reverseRecOn with
  | nil => exact absurd h (by simp [winner?])
  | append_singleton rows r ih =>
    rcases winner?_append_eq_some h with ⟨hbest, -⟩ | ⟨rfl, hr, -⟩
    · exact ⟨List.mem_append_left _ (ih hbest).1, (ih hbest).2⟩
    · exact ⟨List.mem_append_right _ (List.mem_singleton_self _), hr⟩

/-- Where a row competes there is a winner. -/
theorem exists_winner? {rows : List (BasicRow ℚ)} {r : BasicRow ℚ} (hr : r ∈ rows)
    (hcomp : Competes tolerance col r) : ∃ best, winner? tolerance col rows = some best := by
  induction rows using List.reverseRecOn with
  | nil => exact absurd hr List.not_mem_nil
  | append_singleton rows s ih =>
    rw [winner?_append]
    by_cases hs : Competes tolerance col s
    · cases winner? tolerance col rows with
      | none => exact ⟨s, challenge_none hs⟩
      | some b =>
        rw [challenge_some hs]
        split <;> exact ⟨_, rfl⟩
    · rw [challenge_of_not_competes hs]
      rcases List.mem_append.mp hr with hr | hr
      · exact ih hr
      · rw [List.mem_singleton.mp hr] at hcomp
        exact absurd hcomp hs

/-- There is no winner exactly when no row competes. -/
theorem winner?_eq_none_iff {rows : List (BasicRow ℚ)} :
    winner? tolerance col rows = none ↔ ∀ r ∈ rows, ¬Competes tolerance col r := by
  constructor
  · intro h r hr hcomp
    obtain ⟨best, hbest⟩ := exists_winner? hr hcomp
    exact absurd (h.symm.trans hbest) (by simp)
  · intro h
    rw [Option.eq_none_iff_forall_ne_some]
    intro best hbest
    obtain ⟨hmem, hcomp⟩ := mem_of_winner?_eq_some hbest
    exact h best hmem hcomp

/-- A row that beats the winner takes its place. -/
theorem winner?_append_of_beats {rows : List (BasicRow ℚ)} {r : BasicRow ℚ}
    (hcomp : Competes tolerance col r)
    (h : ∀ b, winner? tolerance col rows = some b → Beats tolerance col r b) :
    winner? tolerance col (rows ++ [r]) = some r := by
  rw [winner?_append]
  cases hb : winner? tolerance col rows with
  | none => exact challenge_none hcomp
  | some b => rw [challenge_some hcomp, if_pos (h b hb)]

/-- Without a tolerance no competing row comes before the winner by rank. -/
theorem rank_winner?_le {rows : List (BasicRow ℚ)} {best : BasicRow ℚ}
    (h : winner? 0 col rows = some best) {q : BasicRow ℚ} (hq : q ∈ rows) (hcomp : Competes 0 col q) :
    rank col best ≤ rank col q := by
  induction rows using List.reverseRecOn generalizing best with
  | nil => exact absurd hq List.not_mem_nil
  | append_singleton rows r ih =>
    rw [List.mem_append, List.mem_singleton] at hq
    rcases winner?_append_eq_some h with ⟨hbest, hkeep⟩ | ⟨rfl, -, htake⟩
    · rcases hq with hq | rfl
      · exact ih hbest hq
      · exact not_lt.mp (mt beats_zero.mpr (hkeep.resolve_left (not_not.mpr hcomp)))
    · rcases hq with hq | rfl
      · obtain ⟨b, hb⟩ := exists_winner? hq hcomp
        exact (beats_zero.mp (htake b hb)).le.trans (ih hb hq)
      · exact le_rfl

/-! ## The candidate of the ratio test -/

section RatioStep

variable {r : BasicRow ℚ} (row : ℕ)

theorem ratioStep_of_not_competes (h : ¬Competes tolerance col r)
    (best? : Option (Candidate ℚ)) : ratioStep tolerance col best? r row = best? := by
  refine if_pos ?_
  rw [Bool.or_eq_true, Bool.not_eq_true', Scalar.lt_rat_eq_false, Scalar.lt_rat]
  by_contra hc
  rw [not_or, not_le, not_lt] at hc
  exact h hc

/-- A row that competes goes on to be compared with the best one so far. -/
private theorem ratioStep_guard (h : Competes tolerance col r) :
    ¬(!Scalar.lt tolerance (r.equation.entry col) ||
      Scalar.lt (r.equation.rhs / r.equation.entry col) 0) = true := by
  rw [Bool.or_eq_true, Bool.not_eq_true', Scalar.lt_rat_eq_false, Scalar.lt_rat, not_or, not_le,
    not_lt]
  exact h

theorem ratioStep_none (h : Competes tolerance col r) :
    ratioStep tolerance col none r row = some ⟨ratio col r, row, r.basic⟩ :=
  if_neg (ratioStep_guard h)

/-- A row that competes replaces a candidate when it beats the row that the candidate stands for. -/
theorem ratioStep_some (h : Competes tolerance col r) {c : Candidate ℚ} {best : BasicRow ℚ}
    (hratio : c.ratio = ratio col best) (hbasic : c.basic = best.basic) :
    ratioStep tolerance col (some c) r row =
      if Beats tolerance col r best then some ⟨ratio col r, row, r.basic⟩ else some c := by
  refine (if_neg (ratioStep_guard h)).trans ?_
  refine if_congr ?_ rfl rfl
  rw [Bool.or_eq_true, Bool.and_eq_true, Scalar.lt_rat, Scalar.le_rat, decide_eq_true_iff, hratio,
    hbasic]
  rfl

end RatioStep

/-- The candidate after some numbered rows. -/
def candidate? (tolerance : ℚ) (col : ℕ) (L : List (BasicRow ℚ × ℕ)) : Option (Candidate ℚ) :=
  L.foldl (fun best? r => ratioStep tolerance col best? r.1 r.2) none

theorem candidate?_append (L : List (BasicRow ℚ × ℕ)) (p : BasicRow ℚ × ℕ) :
    candidate? tolerance col (L ++ [p]) =
      ratioStep tolerance col (candidate? tolerance col L) p.1 p.2 :=
  List.foldl_append

/-- The leaving row is the candidate after all of them. -/
theorem leaving?_eq_map (t : Tableau ℚ) :
    t.leaving? tolerance col = (candidate? tolerance col t.rows.zipIdx).map Candidate.row :=
  rfl

/-- A candidate and a row that are the best of the same numbered rows. -/
def Agrees (col : ℕ) (L : List (BasicRow ℚ × ℕ)) :
    Option (Candidate ℚ) → Option (BasicRow ℚ) → Prop
  | none, none => True
  | some c, some r => (r, c.row) ∈ L ∧ c.ratio = ratio col r ∧ c.basic = r.basic
  | _, _ => False

theorem Agrees.append {L : List (BasicRow ℚ × ℕ)} {c? : Option (Candidate ℚ)}
    {best? : Option (BasicRow ℚ)} (h : Agrees col L c? best?) (p : BasicRow ℚ × ℕ) :
    Agrees col (L ++ [p]) c? best? := by
  cases c? <;> cases best?
  case some.some => exact ⟨List.mem_append_left _ h.1, h.2⟩
  all_goals exact h

/-- The test on candidates and the contest of rows go on alike. -/
private theorem agrees_step {L : List (BasicRow ℚ × ℕ)} {c? : Option (Candidate ℚ)}
    {best? : Option (BasicRow ℚ)} (h : Agrees col L c? best?) (p : BasicRow ℚ × ℕ) :
    Agrees col (L ++ [p]) (ratioStep tolerance col c? p.1 p.2) (challenge tolerance col best? p.1) := by
  by_cases hp : Competes tolerance col p.1
  · have hown : Agrees col (L ++ [p]) (some ⟨ratio col p.1, p.2, p.1.basic⟩) (some p.1) :=
      ⟨List.mem_append_right _ (List.mem_singleton_self p), rfl, rfl⟩
    cases c? <;> cases best?
    case none.none =>
      rw [ratioStep_none _ hp, challenge_none hp]
      exact hown
    case some.some c best =>
      rw [ratioStep_some _ hp h.2.1 h.2.2, challenge_some hp]
      split
      · exact hown
      · exact h.append p
    all_goals exact h.elim
  · rw [ratioStep_of_not_competes _ hp, challenge_of_not_competes hp]
    exact h.append p

/-- The candidate stands for the winner. -/
theorem agrees_candidate? (L : List (BasicRow ℚ × ℕ)) :
    Agrees col L (candidate? tolerance col L) (winner? tolerance col (L.map Prod.fst)) := by
  induction L using List.reverseRecOn with
  | nil => trivial
  | append_singleton L p ih =>
    rw [candidate?_append, List.map_append, List.map_singleton, winner?_append]
    exact agrees_step ih p

theorem winner?_of_candidate? {L : List (BasicRow ℚ × ℕ)} {c : Candidate ℚ}
    (h : candidate? tolerance col L = some c) :
    ∃ r, winner? tolerance col (L.map Prod.fst) = some r ∧ (r, c.row) ∈ L ∧ c.ratio = ratio col r ∧
      c.basic = r.basic := by
  have hagrees : Agrees col L (candidate? tolerance col L) (winner? tolerance col (L.map Prod.fst)) :=
    agrees_candidate? L
  rw [h] at hagrees
  cases hwin : winner? tolerance col (L.map Prod.fst) with
  | none =>
    rw [hwin] at hagrees
    exact hagrees.elim
  | some r =>
    rw [hwin] at hagrees
    exact ⟨r, rfl, hagrees⟩

theorem candidate?_eq_none_iff {L : List (BasicRow ℚ × ℕ)} :
    candidate? tolerance col L = none ↔ winner? tolerance col (L.map Prod.fst) = none := by
  have hagrees : Agrees col L (candidate? tolerance col L) (winner? tolerance col (L.map Prod.fst)) :=
    agrees_candidate? L
  revert hagrees
  cases candidate? tolerance col L <;> cases winner? tolerance col (L.map Prod.fst) <;>
    simp [Agrees]

/-! ## The leaving row -/

/-- A row leaves exactly where there is a winner. -/
theorem leaving?_eq_none_iff_winner? :
    t.leaving? tolerance col = none ↔ winner? tolerance col t.rows = none := by
  rw [leaving?_eq_map, Option.map_eq_none_iff, candidate?_eq_none_iff, List.zipIdx_map_fst]

/-- The leaving row is there, competes, and is the winner. -/
theorem winner?_of_leaving? {row : ℕ} (h : t.leaving? tolerance col = some row) :
    ∃ r, t.rows[row]? = some r ∧ Competes tolerance col r ∧ winner? tolerance col t.rows = some r := by
  rw [leaving?_eq_map, Option.map_eq_some_iff] at h
  obtain ⟨c, hc, rfl⟩ := h
  obtain ⟨r, hwin, hmem, -⟩ := winner?_of_candidate? hc
  rw [List.zipIdx_map_fst] at hwin
  exact ⟨r, List.mem_zipIdx_iff_getElem?.mp hmem, (mem_of_winner?_eq_some hwin).2, hwin⟩

/-- There is no leaving row exactly when no row competes. -/
theorem leaving?_eq_none_iff :
    t.leaving? tolerance col = none ↔ ∀ r ∈ t.rows, ¬Competes tolerance col r :=
  leaving?_eq_none_iff_winner?.trans winner?_eq_none_iff

/-- The leaving row competes. -/
theorem competes_of_leaving?_eq_some {row : ℕ} (h : t.leaving? tolerance col = some row) :
    ∃ r, t.rows[row]? = some r ∧ Competes tolerance col r := by
  obtain ⟨r, hr, hcomp, -⟩ := winner?_of_leaving? h
  exact ⟨r, hr, hcomp⟩

/-- Without a tolerance the leaving row is the first of the competing rows by ratio, and of those with
its ratio the first by basic variable. -/
theorem rank_le_of_leaving?_eq_some {row : ℕ} (h : t.leaving? 0 col = some row)
    {r s : BasicRow ℚ} (hr : t.rows[row]? = some r) (hs : s ∈ t.rows) (hcomp : Competes 0 col s) :
    rank col r ≤ rank col s := by
  obtain ⟨best, hbest, -, hwin⟩ := winner?_of_leaving? h
  rw [hr] at hbest
  rw [Option.some.inj hbest]
  exact rank_winner?_le hwin hs hcomp

end LinearProgram.Tableau
