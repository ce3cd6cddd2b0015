import Mathlib
import LinearProgram.Proofs.Model.Renaming
import LinearProgram.Proofs.Rational.Scalar

/-!
# Merging products

An expression keeps one term for every name, whatever sequence of products it is made of: a name stands
where it was first mentioned, and its coefficient is the sum of those that it was given. Neither needs a law
of arithmetic. In exact arithmetic an addition adds the value of its product (`evaluate_add`), so that the
merged expression has the value of the sequence itself, and neither the order of the products nor how they
are split up matters (`merging_keeps_meaning`).
-/

namespace LinearProgram.LinearExpr

variable {K : Type}

/-! ## What a sequence gives to a name -/

/-- The coefficients that products give to a name, in order. -/
def givenTo (name : String) (products : List (String × K)) : List K :=
  (products.filter fun p => p.1 == name).map Prod.snd

/-- The sum of numbers in their order, from the first one on; zero if there is none. -/
def sumInOrder [Zero K] [Add K] : List K → K
  | [] => 0
  | c :: cs => cs.foldl (· + ·) c

/-- A lookup that notes what it is asked for. -/
def noting (value : String → K) (name : String) : StateM (List String) K := do
  modify (· ++ [name])
  return value name

/-- The expression mentions every name of the products once, in the order of their first mention, with the sum
of the coefficients given to it, and evaluating it asks for every name once in that order. -/
structure Merges [Scalar K] (e : LinearExpr K) (products : List (String × K)) : Prop where
  nodup : e.names.Nodup
  names : e.names = (products.map Prod.fst).eraseDups
  coefficient : ∀ name, e.coefficient name = sumInOrder (givenTo name products)
  unmentioned : ∀ name, name ∉ products.map Prod.fst → e.coefficient name = 0
  lookups : ∀ value asked, (e.evaluateM (noting value)).run asked =
    (e.evaluate value, asked ++ (products.map Prod.fst).eraseDups)

theorem sumInOrder_concat [Zero K] [Add K] {cs : List K} (h : cs ≠ []) (c : K) :
    sumInOrder (cs ++ [c]) = sumInOrder cs + c := by
  cases cs with
  | nil => exact absurd rfl h
  | cons d ds => exact List.foldl_append

theorem givenTo_concat (name : String) (products : List (String × K)) (p : String × K) :
    givenTo name (products ++ [p]) =
      if p.1 = name then givenTo name products ++ [p.2] else givenTo name products := by
  rw [givenTo, List.filter_append, List.map_append]
  by_cases h : p.1 = name <;> simp [givenTo, h]

/-- A name is given nothing exactly if no product has it. -/
theorem givenTo_eq_nil_iff {name : String} {products : List (String × K)} :
    givenTo name products = [] ↔ name ∉ products.map Prod.fst := by
  rw [givenTo, List.map_eq_nil_iff, List.filter_eq_nil_iff, List.mem_map, not_exists]
  simp only [beq_iff_eq, not_and]

/-! ## One product -/

/-- The coefficient of a name is that of the first term with the name. -/
theorem coefficient_cons [Zero K] (t : Term K) (ts : List (Term K)) (x : String) :
    (LinearExpr.mk (t :: ts)).coefficient x =
      if t.name = x then t.coefficient else (LinearExpr.mk ts).coefficient x := by
  by_cases h : t.name = x <;> simp [coefficient, h]

section Add

variable [Add K]

/-- What a sequence makes is added to as if the sequence went on. -/
theorem ofList_concat (products : List (String × K)) (p : String × K) :
    ofList (products ++ [p]) = (ofList products).add p.1 p.2 :=
  List.foldl_append

/-- Adding a product changes the coefficient of its name only. -/
theorem coefficient_add [Zero K] (e : LinearExpr K) (name : String) (c : K) (x : String) :
    (e.add name c).coefficient x =
      if name = x then (if name ∈ e.names then e.coefficient name + c else c) else e.coefficient x := by
  obtain ⟨ts⟩ := e
  induction ts with
  | nil => exact coefficient_cons ⟨name, c⟩ [] x
  | cons t ts ih =>
    by_cases ht : t.name = name
    · have hadd : (LinearExpr.mk (t :: ts)).add name c = ⟨⟨t.name, t.coefficient + c⟩ :: ts⟩ :=
        congrArg LinearExpr.mk (if_pos ht)
      have hmem : name ∈ (LinearExpr.mk (t :: ts)).names := ht ▸ List.mem_cons_self
      rw [hadd, coefficient_cons, coefficient_cons, coefficient_cons, if_pos hmem, if_pos ht, ht]
      by_cases hx : name = x
      · rw [if_pos hx, if_pos hx]
      · rw [if_neg hx, if_neg hx, if_neg hx]
    · have hadd : (LinearExpr.mk (t :: ts)).add name c = ⟨t :: ((LinearExpr.mk ts).add name c).terms⟩ :=
        congrArg LinearExpr.mk (if_neg ht)
      have hmem : name ∈ (LinearExpr.mk (t :: ts)).names ↔ name ∈ (LinearExpr.mk ts).names :=
        List.mem_cons.trans (or_iff_right (Ne.symm ht))
      rw [hadd, coefficient_cons, coefficient_cons, coefficient_cons, if_neg ht]
      simp only [hmem]
      by_cases hx : name = x
      · rw [if_pos hx, if_neg (hx ▸ ht)]
        exact ih.trans (if_pos hx)
      · rw [if_neg hx]
        exact if_congr Iff.rfl rfl (ih.trans (if_neg hx))

end Add

/-! ## Sequences of products -/

section Sequence

/-- The names stand in the order of their first mention. -/
theorem names_ofList [Add K] (products : List (String × K)) :
    (ofList products).names = (products.map Prod.fst).eraseDups := by
  induction products using List.reverseRecOn with
  | nil => rfl
  | append_singleton products p ih =>
    rw [ofList_concat, names_add, ih, List.map_append, List.eraseDups_append]
    by_cases h : p.1 ∈ products.map Prod.fst
    · rw [if_pos (List.mem_eraseDups.mpr h)]
      simp [List.removeAll, List.mem_map.mp h]
    · rw [if_neg (mt List.mem_eraseDups.mp h)]
      simp [List.removeAll, h, List.eraseDups_cons]

/-- A name's coefficient is the sum of what the sequence gives to it. -/
theorem coefficient_ofList [Zero K] [Add K] (products : List (String × K)) (name : String) :
    (ofList products).coefficient name = sumInOrder (givenTo name products) := by
  induction products using List.reverseRecOn with
  | nil => rfl
  | append_singleton products p ih =>
    rw [ofList_concat, coefficient_add, givenTo_concat]
    by_cases hp : p.1 = name
    · subst hp
      rw [if_pos rfl, if_pos rfl, ih]
      by_cases hmem : p.1 ∈ products.map Prod.fst
      · rw [if_pos (mem_names_ofList.mpr hmem),
          sumInOrder_concat (mt givenTo_eq_nil_iff.mp (not_not.mpr hmem))]
      · rw [if_neg (mt mem_names_ofList.mp hmem), givenTo_eq_nil_iff.mpr hmem]
        rfl
    · rw [if_neg hp, if_neg hp, ih]

/-- Evaluating an expression asks for the names of its terms, one after the other. -/
theorem run_evaluateM_noting [Scalar K] (e : LinearExpr K) (value : String → K) (asked : List String) :
    (e.evaluateM (noting value)).run asked = (e.evaluate value, asked ++ e.names) := by
  have hfold (ts : List (Term K)) (sum : K) (asked : List String) :
      (ts.foldlM (fun sum t => do return sum + t.coefficient * (← noting value t.name)) sum :
          StateM (List String) K).run asked =
        (ts.foldl (fun sum t => sum + t.coefficient * value t.name) sum, asked ++ ts.map Term.name) := by
    induction ts generalizing sum asked with
    | nil => exact congrArg (Prod.mk sum) (List.append_nil asked).symm
    | cons t ts ih =>
      rw [List.foldlM_cons, List.foldl_cons, List.map_cons, List.append_cons, ← ih]
      rfl
  exact hfold e.terms emptySum asked

theorem merges_ofList [Scalar K] (products : List (String × K)) : (ofList products).Merges products where
  nodup := nodup_names_ofList products
  names := names_ofList products
  coefficient := coefficient_ofList products
  unmentioned name h := by
    rw [coefficient_ofList, givenTo_eq_nil_iff.mpr h]
    rfl
  lookups value asked := by rw [run_evaluateM_noting, names_ofList]

end Sequence

/-! ## Exact arithmetic -/

section Exact

/-- The value of an expression as a sum over its terms. -/
theorem evaluate_eq_sum (e : LinearExpr ℚ) (value : String → ℚ) :
    e.evaluate value = (e.terms.map fun t => t.coefficient * value t.name).sum := by
  have hzero : (emptySum : ℚ) = 0 := neg_zero
  rw [evaluate, hzero, List.sum_eq_foldl, List.foldl_map]

/-- Adding a product adds its value, whether its name is new or not. -/
theorem evaluate_add (e : LinearExpr ℚ) (name : String) (c : ℚ) (value : String → ℚ) :
    (e.add name c).evaluate value = e.evaluate value + c * value name := by
  have hmerge (ts : List (Term ℚ)) :
      ((Term.merge name c ts).map fun t => t.coefficient * value t.name).sum =
        (ts.map fun t => t.coefficient * value t.name).sum + c * value name := by
    induction ts with
    | nil => simp [Term.merge]
    | cons t ts ih =>
      rw [Term.merge]
      by_cases h : t.name = name
      · have hsum : (t.coefficient + c) * value t.name = t.coefficient * value t.name + c * value name := by
          rw [← h, add_mul]
        rw [if_pos h, List.map_cons, List.sum_cons, List.map_cons, List.sum_cons, hsum, add_right_comm]
      · rw [if_neg h, List.map_cons, List.sum_cons, List.map_cons, List.sum_cons, ih, add_assoc]
  rw [evaluate_eq_sum, evaluate_eq_sum]
  exact hmerge e.terms

/-- The merged expression has the value of the products that it is made of. -/
theorem evaluate_ofList (products : List (String × ℚ)) (value : String → ℚ) :
    (ofList products).evaluate value = (products.map fun p => p.2 * value p.1).sum := by
  induction products using List.reverseRecOn with
  | nil => exact neg_zero
  | append_singleton products p ih =>
    rw [ofList_concat, evaluate_add, ih, List.map_append, List.sum_append, List.map_singleton,
      List.sum_singleton]

end Exact

/-- **Merging keeps the meaning.** The expression made of a sequence of products merges them, and adding
another product makes what the longer sequence does. In exact arithmetic it has the value of the sequence,
product by product, so that two sequences in a row add up and a sequence in another order has the same value. -/
theorem merging_keeps_meaning [Scalar K] (products : List (String × K)) (exact : List (String × ℚ))
    (value : String → ℚ) :
    ((ofList products).Merges products ∧
        ∀ name c, (ofList products).add name c = ofList (products ++ [(name, c)])) ∧
      (ofList exact).evaluate value = (exact.map fun p => p.2 * value p.1).sum ∧
      (∀ more, (ofList (exact ++ more)).evaluate value =
        (ofList exact).evaluate value + (ofList more).evaluate value) ∧
      ∀ reordered, reordered.Perm exact →
        (ofList reordered).evaluate value = (ofList exact).evaluate value := by
  refine ⟨⟨merges_ofList products, fun name c => (ofList_concat products (name, c)).symm⟩,
    evaluate_ofList exact value, fun more => ?_, fun reordered h => ?_⟩
  · rw [evaluate_ofList, evaluate_ofList, evaluate_ofList, List.map_append, List.sum_append]
  · rw [evaluate_ofList, evaluate_ofList]
    exact (h.map _).sum_eq

/-- `2 x + y + 3 x - y`. -/
def entangled : List (String × ℚ) :=
  [("x", 2), ("y", 1), ("x", 3), ("y", -1)]

theorem merging_keeps_meaning_entangled :
    (ofList entangled).Merges entangled ∧
      (ofList entangled).terms = [⟨"x", 5⟩, ⟨"y", 0⟩] ∧
      entangled.reverse.Perm entangled ∧
      (ofList entangled.reverse).terms = [⟨"y", 0⟩, ⟨"x", 5⟩] ∧
      ∀ value, (ofList entangled.reverse).evaluate value = (ofList entangled).evaluate value :=
  have hperm : entangled.reverse.Perm entangled := List.reverse_perm entangled
  ⟨(merging_keeps_meaning entangled entangled fun _ => 0).1.1, by decide +kernel, hperm, by decide +kernel,
    fun value => (merging_keeps_meaning entangled entangled value).2.2.2 _ hperm⟩

end LinearProgram.LinearExpr
