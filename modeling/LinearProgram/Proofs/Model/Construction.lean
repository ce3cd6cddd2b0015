import Mathlib
import LinearProgram.Model.Draft

/-!
# Construction runs

A draft is made by a sequence of calls, some of which may be refused. `Draft.after` runs such a
sequence, and a model is accepted when some sequence ends in a draft that finishes into it. The
invariant of a run is `Draft.WellFormed`: identifiers do not repeat, what a draft keeps beside its lists
agrees with them, and every expression is a finite sum over declared variables.
-/

namespace LinearProgram

variable {K : Type}

namespace Draft

/-- A call on a draft. Expressions are given by their products, as a caller adds them. -/
inductive Call (K : Type) where
  | declare (id : String) (domain : Domain)
  | constrain (id : String) (products : List (String × K)) (relation : Relation) (bound : K)
  | pursue (products : List (String × K)) (sense : Sense)

variable [Scalar K]

/-- What a call answers. -/
def Call.attempt (d : Draft K) : Call K → Except ModelError (Draft K)
  | .declare id domain => d.declare id domain
  | .constrain id products relation bound =>
    d.constrain id (LinearExpr.ofList products) relation bound
  | .pursue products sense => d.pursue (LinearExpr.ofList products) sense

/-- The draft after a call: a refused one leaves it as it was. -/
def Call.perform (d : Draft K) (call : Call K) : Draft K :=
  match call.attempt d with
  | .ok d' => d'
  | .error _ => d

/-- The draft after a sequence of calls on the empty one. -/
def after (calls : List (Call K)) : Draft K :=
  calls.foldl Call.perform empty

end Draft

/-- A model that some sequence of calls builds. -/
def Model.Accepted [Scalar K] (m : Model K) : Prop :=
  ∃ calls : List (Draft.Call K), (Draft.after calls).finish = .ok m

/-! ## Expressions -/

namespace LinearExpr

/-- The expression is a finite sum over variables among `ids`, each at most once. -/
structure Over [Scalar K] (ids : List String) (e : LinearExpr K) : Prop where
  declared : ∀ name ∈ e.names, name ∈ ids
  nodup : e.names.Nodup
  finite : e.isFinite = true

theorem Over.mono [Scalar K] {ids ids' : List String} {e : LinearExpr K} (h : e.Over ids)
    (hsub : ids ⊆ ids') : e.Over ids' :=
  ⟨fun name hname => hsub (h.declared name hname), h.nodup, h.finite⟩

/-- A sum of products mentions no name twice. -/
theorem nodup_names_ofList [Add K] (products : List (String × K)) :
    (ofList products).names.Nodup := by
  have hfold (e : LinearExpr K) (he : e.names.Nodup) :
      (products.foldl (fun e p => e.add p.1 p.2) e).names.Nodup := by
    induction products generalizing e with
    | nil => exact he
    | cons p ps ih => exact ih _ (nodup_names_add he p.1 p.2)
  exact hfold empty List.nodup_nil

end LinearExpr

/-! ## Positions -/

/-- A variable with a new identifier takes the next position. -/
theorem positionOf?_concat {vars : List Variable} {v : Variable} (hnew : v.id ∉ vars.map Variable.id)
    (id : String) :
    positionOf? (vars ++ [v]) id = if id = v.id then some vars.length else positionOf? vars id := by
  have hnone := positionOf?_eq_none_iff.mpr hnew
  unfold positionOf? at *
  rw [List.findIdx?_append]
  by_cases h : id = v.id
  · subst h
    simp [hnone]
  · simp [h, Ne.symm h]

/-- Among distinct identifiers each one is found where it was declared. -/
theorem positionOf?_eq_some_iff {vars : List Variable} (h : (vars.map Variable.id).Nodup) {id : String}
    {j : ℕ} : positionOf? vars id = some j ↔ (vars[j]?).map Variable.id = some id := by
  rw [positionOf?, List.findIdx?_eq_some_iff_getElem]
  constructor
  · rintro ⟨hj, hid, -⟩
    simpa [hj] using hid
  · intro hid
    obtain ⟨v, hv, rfl⟩ := Option.map_eq_some_iff.mp hid
    obtain ⟨hj, hvj⟩ := List.getElem?_eq_some_iff.mp hv
    refine ⟨hj, by simp [hvj], ?_⟩
    intro i hij
    have hne := (List.pairwise_iff_getElem.mp h) i j (by simp; omega) (by simpa) hij
    simpa [hvj] using hne

/-! ## What a call that is not refused has done -/

namespace Draft

variable [Scalar K] {d d' : Draft K}

theorem check_eq_ok {place : Place} {e : LinearExpr K} {finite : Bool} :
    d.check place e finite = .ok () ↔
      (∀ name ∈ e.names, d.declares name = true) ∧ e.isFinite = true ∧ finite = true := by
  have hdeclared : d.undeclared? e = none ↔ ∀ name ∈ e.names, d.declares name = true := by
    simp [undeclared?]
  rw [← hdeclared, check]
  cases d.undeclared? e with
  | some name => simp
  | none => simp

omit [Scalar K] in
theorem declare_eq_ok {id : String} {domain : Domain} :
    d.declare id domain = .ok d' ↔
      d.declares id = false ∧
        { d with vars := d.vars ++ [⟨id, domain⟩], index := (id, d.vars.length) :: d.index } = d' := by
  unfold declare
  split <;> simp_all

theorem constrain_eq_ok {id : String} {e : LinearExpr K} {relation : Relation} {bound : K} :
    d.constrain id e relation bound = .ok d' ↔
      d.reserves id = false ∧ d.check (.constraint id) e (Scalar.isFinite bound) = .ok () ∧
        { d with
          constraints := d.constraints ++ [⟨id, e, relation, bound⟩]
          reserved := id :: d.reserved } = d' := by
  unfold constrain
  split
  · simp_all
  · split <;> simp_all

theorem pursue_eq_ok {e : LinearExpr K} {sense : Sense} :
    d.pursue e sense = .ok d' ↔
      d.check .objective e true = .ok () ∧ { d with objective? := some ⟨e, sense⟩ } = d' := by
  unfold pursue
  split <;> simp_all

omit [Scalar K] in
theorem finish_eq_ok {m : Model K} :
    d.finish = .ok m ↔ ∃ o, d.objective? = some o ∧ ⟨d.vars, d.constraints, o⟩ = m := by
  unfold finish
  split <;> simp_all

/-! ## The invariant -/

/-- Identifiers do not repeat, the index and the reserved identifiers say what the lists do, and
constraints and objective are over the declared variables. -/
structure WellFormed (d : Draft K) : Prop where
  nodup_vars : (d.vars.map Variable.id).Nodup
  index : ∀ id, d.indexOf? id = positionOf? d.vars id
  nodup_constraints : (d.constraints.map Constraint.id).Nodup
  reserved : ∀ id, id ∈ d.reserved ↔ id ∈ d.constraints.map Constraint.id
  constraints : ∀ c ∈ d.constraints,
    c.expression.Over (d.vars.map Variable.id) ∧ Scalar.isFinite c.bound = true
  objective : ∀ o, d.objective? = some o → o.expression.Over (d.vars.map Variable.id)

namespace WellFormed

theorem empty : (Draft.empty : Draft K).WellFormed where
  nodup_vars := List.nodup_nil
  index _ := rfl
  nodup_constraints := List.nodup_nil
  reserved _ := Iff.rfl
  constraints := by simp [Draft.empty]
  objective := by simp [Draft.empty]

variable (h : d.WellFormed)
include h

theorem declares_eq_true {id : String} : d.declares id = true ↔ id ∈ d.vars.map Variable.id := by
  rw [declares, h.index, Option.isSome_iff_ne_none, ne_eq, positionOf?_eq_none_iff, not_not]

theorem reserves_eq_true {id : String} : d.reserves id = true ↔ id ∈ d.constraints.map Constraint.id := by
  rw [reserves, List.contains_iff_mem, h.reserved]

/-- What a check lets through is over the declared variables. -/
theorem over_of_check_eq_ok {place : Place} {products : List (String × K)} {finite : Bool}
    (hcheck : d.check place (LinearExpr.ofList products) finite = .ok ()) :
    (LinearExpr.ofList products).Over (d.vars.map Variable.id) ∧ finite = true := by
  obtain ⟨hdeclared, he, hfinite⟩ := check_eq_ok.mp hcheck
  refine ⟨⟨fun name hname => ?_, LinearExpr.nodup_names_ofList products, he⟩, hfinite⟩
  exact h.declares_eq_true.mp (hdeclared name hname)

theorem declare {id : String} {domain : Domain} (hd : d.declare id domain = .ok d') :
    d'.WellFormed := by
  obtain ⟨hfree, rfl⟩ := declare_eq_ok.mp hd
  have hnew : id ∉ d.vars.map Variable.id := by
    rw [← h.declares_eq_true, hfree]
    exact Bool.false_ne_true
  have hsub : d.vars.map Variable.id ⊆ (d.vars ++ [(⟨id, domain⟩ : Variable)]).map Variable.id := by
    simp
  refine ⟨?_, fun name => ?_, h.nodup_constraints, h.reserved, ?_,
    fun o ho => (h.objective o ho).mono hsub⟩
  · rw [List.map_append]
    exact List.Nodup.append h.nodup_vars (List.nodup_singleton _)
      (List.disjoint_singleton.mpr hnew)
  · rw [positionOf?_concat hnew, ← h.index, indexOf?, List.lookup_cons]
    by_cases hname : name = id
    · simp [hname]
    · rw [beq_false_of_ne hname, if_neg hname]
      rfl
  · exact fun c hc => ⟨(h.constraints c hc).1.mono hsub, (h.constraints c hc).2⟩

theorem constrain {id : String} {products : List (String × K)} {relation : Relation} {bound : K}
    (hd : d.constrain id (LinearExpr.ofList products) relation bound = .ok d') : d'.WellFormed := by
  obtain ⟨hfree, hcheck, rfl⟩ := constrain_eq_ok.mp hd
  have hnew : id ∉ d.constraints.map Constraint.id := by
    rw [← h.reserves_eq_true, hfree]
    exact Bool.false_ne_true
  refine ⟨h.nodup_vars, h.index, ?_, fun name => ?_, ?_, h.objective⟩
  · rw [List.map_append]
    exact List.Nodup.append h.nodup_constraints (List.nodup_singleton _)
      (List.disjoint_singleton.mpr hnew)
  · rw [List.map_append, List.mem_append, ← h.reserved, List.mem_cons, or_comm]
    simp
  · intro c hc
    rcases List.mem_append.mp hc with hc | hc
    · exact h.constraints c hc
    · rw [List.mem_singleton.mp hc]
      exact h.over_of_check_eq_ok hcheck

theorem pursue {products : List (String × K)} {sense : Sense}
    (hd : d.pursue (LinearExpr.ofList products) sense = .ok d') : d'.WellFormed := by
  obtain ⟨hcheck, rfl⟩ := pursue_eq_ok.mp hd
  refine ⟨h.nodup_vars, h.index, h.nodup_constraints, h.reserved, h.constraints, ?_⟩
  intro o ho
  rw [← Option.some.inj ho]
  exact (h.over_of_check_eq_ok hcheck).1

theorem attempt {call : Call K} (hcall : call.attempt d = .ok d') : d'.WellFormed := by
  cases call with
  | declare id domain => exact h.declare hcall
  | constrain id products relation bound => exact h.constrain hcall
  | pursue products sense => exact h.pursue hcall

theorem perform (call : Call K) : (call.perform d).WellFormed := by
  unfold Call.perform
  cases hcall : call.attempt d with
  | error _ => exact h
  | ok d' => exact h.attempt hcall

end WellFormed

/-- Every draft that calls lead to is well-formed. -/
theorem wellFormed_after (calls : List (Call K)) : (after calls).WellFormed := by
  have hfold (d : Draft K) (hd : d.WellFormed) : (calls.foldl Call.perform d).WellFormed := by
    induction calls generalizing d with
    | nil => exact hd
    | cons call calls ih => exact ih _ (hd.perform call)
  exact hfold empty WellFormed.empty

end Draft

namespace Model

variable [Scalar K]

/-- The invariant of drafts, for a finished model. -/
structure WellFormed (m : Model K) : Prop where
  nodup_vars : (m.vars.map Variable.id).Nodup
  nodup_constraints : (m.constraints.map Constraint.id).Nodup
  constraints : ∀ c ∈ m.constraints,
    c.expression.Over (m.vars.map Variable.id) ∧ Scalar.isFinite c.bound = true
  objective : m.objective.expression.Over (m.vars.map Variable.id)

theorem Accepted.wellFormed {m : Model K} (h : m.Accepted) : m.WellFormed := by
  obtain ⟨calls, hcalls⟩ := h
  have hd := Draft.wellFormed_after calls
  obtain ⟨objective, hobjective, rfl⟩ := Draft.finish_eq_ok.mp hcalls
  exact ⟨hd.nodup_vars, hd.nodup_constraints, hd.constraints, hd.objective _ hobjective⟩

/-- Identifiers do not repeat, so each one is found where it was declared. -/
theorem WellFormed.indexOf?_eq_some {m : Model K} (h : m.WellFormed) {j : ℕ} {v : Variable}
    (hv : m.vars[j]? = some v) : m.indexOf? v.id = some j :=
  (positionOf?_eq_some_iff h.nodup_vars).mpr (by rw [hv]; rfl)

end Model

end LinearProgram
