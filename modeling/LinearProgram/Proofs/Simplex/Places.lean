import Mathlib

/-!
# Lists with guarded places

Reading, writing, removing and copying in a list by position, where a position that the list does not have
gives no result, and subtraction that gives none below zero. The rest is about loops over the positions of a
list: a loop in which every round has a result has one (`foldlM_range`), and where every round does what a
round over the elements does, the loop does what the loop over the elements does (`foldlM_range_eq`,
`findM?_range`, `allM_range`).
-/

namespace LinearProgram.Places

variable {α β γ : Type}

/-! ## Single places -/

/-- The number before `n`. -/
def before? : ℕ → Option ℕ
  | 0 => none
  | n + 1 => some n

/-- The list with `x` in place `i`. -/
def write? (xs : List α) (i : ℕ) (x : α) : Option (List α) :=
  if i < xs.length then some (xs.set i x) else none

/-- The list without place `i`. -/
def remove? (xs : List α) (i : ℕ) : Option (List α) :=
  if i < xs.length then some (xs.eraseIdx i) else none

/-- The list with its first `n` places taken from a list of that length. -/
def overwrite? (xs : List α) (n : ℕ) (ys : List α) : Option (List α) :=
  if n ≤ xs.length ∧ ys.length = n then some (ys ++ xs.drop n) else none

/-- The first `n` places are combined with those of another list, one after the other. -/
def combine? (f : α → α → α) (n : ℕ) (xs ys : List α) : Option (List α) :=
  (List.range n).foldlM (fun xs j => do write? xs j (f (← xs[j]?) (← ys[j]?))) xs

/-- The elements of another list are written to the first places, one after the other. -/
def store? (xs ys : List α) : Option (List α) :=
  (List.range ys.length).foldlM (fun xs j => do write? xs j (← ys[j]?)) xs

@[simp]
theorem before?_succ (n : ℕ) : before? (n + 1) = some n :=
  rfl

theorem write?_eq {xs : List α} {i : ℕ} (h : i < xs.length) (x : α) : write? xs i x = some (xs.set i x) :=
  if_pos h

theorem remove?_eq {xs : List α} {i : ℕ} (h : i < xs.length) : remove? xs i = some (xs.eraseIdx i) :=
  if_pos h

theorem overwrite?_eq {xs ys : List α} {n : ℕ} (hxs : n ≤ xs.length) (hys : ys.length = n) :
    overwrite? xs n ys = some (ys ++ xs.drop n) :=
  if_pos ⟨hxs, hys⟩

/-- The place after the ones written so far. -/
theorem write?_append (done rest : List α) (x y : α) :
    write? (done ++ x :: rest) done.length y = some (done ++ [y] ++ rest) := by
  rw [write?_eq (by simp), List.set_append_right _ _ le_rfl, Nat.sub_self, List.set_cons_zero,
    List.append_assoc]
  rfl

/-! ## Loops over places -/

/-- The invariant of a loop with `n` rounds: where every round that starts with it has a result that keeps
it, so has the loop. -/
theorem foldlM_range {f : β → ℕ → Option β} {n : ℕ} (P : ℕ → β → Prop) {x : β} (hx : P 0 x)
    (hstep : ∀ i < n, ∀ y, P i y → ∃ y', f y i = some y' ∧ P (i + 1) y') :
    ∃ y, (List.range n).foldlM f x = some y ∧ P n y := by
  induction n with
  | zero => exact ⟨x, rfl, hx⟩
  | succ n ih =>
    obtain ⟨y, hy, hP⟩ := ih fun i hi => hstep i (Nat.lt_succ_of_lt hi)
    obtain ⟨y', hy', hP'⟩ := hstep n n.lt_succ_self y hP
    refine ⟨y', ?_, hP'⟩
    rw [List.range_succ, List.foldlM_append, hy]
    simpa using hy'

/-- A loop over the places of a list that simulates the loop over its elements. -/
theorem foldlM_range_eq {l : List α} {f : β → ℕ → Option β} {g : γ → α → γ} (R : β → γ → Prop)
    {x : β} {y : γ} (hxy : R x y)
    (hstep : ∀ i a, l[i]? = some a → ∀ x y, R x y → ∃ x', f x i = some x' ∧ R x' (g y a)) :
    ∃ x', (List.range l.length).foldlM f x = some x' ∧ R x' (l.foldl g y) := by
  have hloop := foldlM_range (f := f) (n := l.length) (fun i x => R x ((l.take i).foldl g y)) hxy
    fun i hi x hx => by
      obtain ⟨x', hx', hR⟩ := hstep i _ (List.getElem?_eq_getElem hi) x _ hx
      refine ⟨x', hx', ?_⟩
      rwa [← List.take_append_getElem hi, List.foldl_append]
  rwa [List.take_length] at hloop

/-- A loop over the places of a list that simulates the loop over its elements and their places. -/
theorem foldlM_range_zipIdx {l : List α} {f : β → ℕ → Option β} {g : γ → α × ℕ → γ} (R : β → γ → Prop)
    {x : β} {y : γ} (hxy : R x y)
    (hstep : ∀ i a, l[i]? = some a → ∀ x y, R x y → ∃ x', f x i = some x' ∧ R x' (g y (a, i))) :
    ∃ x', (List.range l.length).foldlM f x = some x' ∧ R x' (l.zipIdx.foldl g y) := by
  have hloop := foldlM_range_eq (l := l.zipIdx) (f := f) (g := g) R hxy fun i a ha => by
    rw [List.getElem?_zipIdx, Option.map_eq_some_iff] at ha
    obtain ⟨b, hb, rfl⟩ := ha
    rw [Nat.zero_add]
    exact hstep i b hb
  rwa [List.length_zipIdx] at hloop

/-- The first place whose element passes a test, where places are counted from `start`. -/
theorem findM?_range' {f : ℕ → Option Bool} {p : α → Bool} (l : List α) (start : ℕ)
    (h : ∀ i a, l[i]? = some a → f (start + i) = some (p a)) :
    (List.range' start l.length).findM? f = some ((l.findIdx? p).map (start + ·)) := by
  induction l generalizing start with
  | nil => rfl
  | cons a as ih =>
    have hfirst : f start = some (p a) := h 0 a rfl
    have hrest := ih (start + 1) fun i b hb => by
      rw [Nat.add_assoc, Nat.add_comm 1]
      exact h (i + 1) b hb
    rw [List.length_cons, List.range'_succ, List.findM?, hfirst, List.findIdx?_cons]
    cases p a with
    | true => rfl
    | false =>
      refine hrest.trans (congrArg some ?_)
      cases as.findIdx? p <;> simp [Nat.add_comm, Nat.add_left_comm]

theorem findM?_range {f : ℕ → Option Bool} {p : α → Bool} {l : List α}
    (h : ∀ i a, l[i]? = some a → f i = some (p a)) :
    (List.range l.length).findM? f = some (l.findIdx? p) := by
  rw [List.range_eq_range', findM?_range' l 0 fun i a ha => (congrArg f (Nat.zero_add i)).trans (h i a ha)]
  simp

/-- Whether all elements pass a test, where places are counted from `start`. -/
theorem allM_range' {f : ℕ → Option Bool} {p : α → Bool} (l : List α) (start : ℕ)
    (h : ∀ i a, l[i]? = some a → f (start + i) = some (p a)) :
    (List.range' start l.length).allM f = some (l.all p) := by
  induction l generalizing start with
  | nil => rfl
  | cons a as ih =>
    have hfirst : f start = some (p a) := h 0 a rfl
    have hrest := ih (start + 1) fun i b hb => by
      rw [Nat.add_assoc, Nat.add_comm 1]
      exact h (i + 1) b hb
    rw [List.length_cons, List.range'_succ, List.allM, hfirst, List.all_cons]
    cases p a with
    | true => exact hrest
    | false => rfl

theorem allM_range {f : ℕ → Option Bool} {p : α → Bool} {l : List α}
    (h : ∀ i a, l[i]? = some a → f i = some (p a)) :
    (List.range l.length).allM f = some (l.all p) := by
  rw [List.range_eq_range']
  exact allM_range' l 0 fun i a ha => (congrArg f (Nat.zero_add i)).trans (h i a ha)

/-- A list made place by place, where places are counted from `start`. -/
theorem mapM_zipIdx {f : α × ℕ → Option β} (xs : List α) (ys : List β) (start : ℕ)
    (hlength : ys.length = xs.length) (h : ∀ i a, xs[i]? = some a → f (a, start + i) = ys[i]?) :
    (xs.zipIdx start).mapM f = some ys := by
  induction xs generalizing ys start with
  | nil =>
    rw [List.length_eq_zero_iff.mp hlength]
    rfl
  | cons a as ih =>
    cases ys with
    | nil => exact absurd hlength.symm (Nat.succ_ne_zero _)
    | cons b bs =>
      have hfirst : f (a, start) = some b := h 0 a rfl
      have hrest := ih bs (start + 1) (Nat.succ.inj hlength) fun i c hc => by
        rw [Nat.add_assoc, Nat.add_comm 1]
        exact h (i + 1) c hc
      rw [List.zipIdx_cons, List.mapM_cons, hfirst, hrest]
      rfl

/-! ## Whole lists -/

/-- Combining all the places of two lists. -/
theorem combine?_eq (f : α → α → α) {n : ℕ} {xs ys : List α} (hxs : xs.length = n) (hys : ys.length = n) :
    combine? f n xs ys = some (List.zipWith f xs ys) := by
  obtain ⟨zs, hzs, hP⟩ := foldlM_range
    (f := fun zs j => do write? zs j (f (← zs[j]?) (← ys[j]?))) (n := n)
    (fun j zs => zs = List.zipWith f (xs.take j) (ys.take j) ++ xs.drop j) (x := xs) rfl fun j hj zs hzs => by
      have hx : j < xs.length := hxs.symm ▸ hj
      have hy : j < ys.length := hys.symm ▸ hj
      have hdone : (List.zipWith f (xs.take j) (ys.take j)).length = j := by
        simp [hx.le, hy.le]
      rw [List.drop_eq_getElem_cons hx] at hzs
      have hread : zs[j]? = some xs[j] := by
        rw [hzs, List.getElem?_append_right hdone.le, hdone, Nat.sub_self]
        rfl
      have hwrite := write?_append (List.zipWith f (xs.take j) (ys.take j)) (xs.drop (j + 1)) xs[j]
        (f xs[j] ys[j])
      rw [hdone, ← hzs] at hwrite
      refine ⟨_, ?_, rfl⟩
      simp only [hread, List.getElem?_eq_getElem hy, Option.bind_eq_bind, Option.bind_some]
      rw [hwrite, ← List.take_append_getElem hx, ← List.take_append_getElem hy,
        List.zipWith_append (by simp [hx.le, hy.le])]
      rfl
  rw [combine?, hzs, hP, List.take_of_length_le hxs.le, List.take_of_length_le hys.le, ← hxs,
    List.drop_length, List.append_nil]

/-- Writing a list to the front. -/
theorem store?_eq {xs ys : List α} (h : ys.length ≤ xs.length) :
    store? xs ys = some (ys ++ xs.drop ys.length) := by
  obtain ⟨zs, hzs, hP⟩ := foldlM_range (f := fun zs j => do write? zs j (← ys[j]?)) (n := ys.length)
    (fun j zs => zs = ys.take j ++ xs.drop j) (x := xs) rfl fun j hj zs hzs => by
      have hwrite := write?_append (ys.take j) (xs.drop (j + 1)) xs[j] ys[j]
      rw [List.length_take_of_le hj.le, ← List.drop_eq_getElem_cons (hj.trans_le h), ← hzs] at hwrite
      refine ⟨_, ?_, rfl⟩
      simp only [List.getElem?_eq_getElem hj, Option.bind_eq_bind, Option.bind_some, hwrite]
      rw [List.take_append_getElem]
  rw [store?, hzs, hP, List.take_length]

/-- Writing one element to a run of places. -/
theorem foldlM_write?_replicate (done rest : List α) (x y : α) (n : ℕ) :
    (List.range n).foldlM (fun xs j => write? xs (done.length + j) y)
      (done ++ List.replicate n x ++ rest) = some (done ++ List.replicate n y ++ rest) := by
  obtain ⟨xs, hxs, hP⟩ := foldlM_range (f := fun xs j => write? xs (done.length + j) y) (n := n)
    (fun j xs => xs = done ++ List.replicate j y ++ (List.replicate (n - j) x ++ rest))
    (x := done ++ List.replicate n x ++ rest) (by simp) fun j hj xs hxs => by
      have hwrite := write?_append (done ++ List.replicate j y) (List.replicate (n - (j + 1)) x ++ rest) x y
      rw [← List.cons_append, ← List.replicate_succ, ← Nat.sub_sub, Nat.sub_add_cancel (by omega), ← hxs,
        List.length_append, List.length_replicate] at hwrite
      refine ⟨_, hwrite, ?_⟩
      rw [List.replicate_succ', List.append_assoc done, Nat.sub_sub]
  rw [hxs, hP, Nat.sub_self, List.replicate_zero, List.nil_append]

end LinearProgram.Places
