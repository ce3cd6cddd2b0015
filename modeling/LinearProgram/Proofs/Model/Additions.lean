import Mathlib
import LinearProgram.Proofs.Model.Construction

/-!
# What a construction run adds

A call that is not refused adds a variable or a constraint at the end of its list, or takes the place of
the objective. A refused call adds nothing. So the lists of a draft are what the granted calls of its run
asked for, in the order of the calls, and with the invariant of a run this holds of a finished model too
(`consistent_after`).
-/

namespace LinearProgram.Draft

variable {K : Type} [Scalar K]

/-! ## What calls ask for -/

/-- The variable that a call asks for. -/
def Call.variable? : Call K → Option Variable
  | .declare id domain => some ⟨id, domain⟩
  | _ => none

/-- The constraint that a call asks for. -/
def Call.constraint? : Call K → Option (Constraint K)
  | .constrain id products relation bound => some ⟨id, .ofList products, relation, bound⟩
  | _ => none

/-- The objective that a call asks for. -/
def Call.objective? : Call K → Option (Objective K)
  | .pursue products sense => some ⟨.ofList products, sense⟩
  | _ => none

/-- The calls of a sequence that are not refused, when the first one is made on `d`. -/
def granted (d : Draft K) : List (Call K) → List (Call K)
  | [] => []
  | call :: calls =>
    match call.attempt d with
    | .ok d' => call :: granted d' calls
    | .error _ => granted d calls

/-! ## One call -/

variable {d d' : Draft K} {call : Call K}

/-- A granted call adds what it asks for, and nothing else. -/
theorem added_of_attempt (h : call.attempt d = .ok d') :
    d'.vars = d.vars ++ call.variable?.toList ∧
      d'.constraints = d.constraints ++ call.constraint?.toList ∧
      d'.objective? = call.objective?.or d.objective? := by
  cases call with
  | declare id domain =>
    obtain ⟨-, rfl⟩ := declare_eq_ok.mp h
    exact ⟨rfl, (List.append_nil _).symm, rfl⟩
  | constrain id products relation bound =>
    obtain ⟨-, -, rfl⟩ := constrain_eq_ok.mp h
    exact ⟨(List.append_nil _).symm, rfl, rfl⟩
  | pursue products sense =>
    obtain ⟨-, rfl⟩ := pursue_eq_ok.mp h
    exact ⟨(List.append_nil _).symm, (List.append_nil _).symm, rfl⟩

theorem perform_of_ok (h : call.attempt d = .ok d') : call.perform d = d' := by
  rw [Call.perform, h]

theorem perform_of_error {e : ModelError} (h : call.attempt d = .error e) : call.perform d = d := by
  rw [Call.perform, h]

/-! ## A run -/

/-- What a run adds to the draft that it starts from. -/
theorem added_of_run (d : Draft K) (calls : List (Call K)) :
    (calls.foldl Call.perform d).vars = d.vars ++ (granted d calls).filterMap Call.variable? ∧
      (calls.foldl Call.perform d).constraints =
        d.constraints ++ (granted d calls).filterMap Call.constraint? ∧
      (calls.foldl Call.perform d).objective? =
        ((granted d calls).filterMap Call.objective?).getLast?.or d.objective? := by
  induction calls generalizing d with
  | nil => simp [granted]
  | cons call calls ih =>
    rw [List.foldl_cons, granted]
    cases hcall : call.attempt d with
    | error e =>
      rw [perform_of_error hcall]
      exact ih d
    | ok d' =>
      obtain ⟨hvars, hconstraints, hobjective⟩ := added_of_attempt hcall
      obtain ⟨ihvars, ihconstraints, ihobjective⟩ := ih d'
      rw [perform_of_ok hcall, ihvars, ihconstraints, ihobjective, hvars, hconstraints, hobjective]
      refine ⟨?_, ?_, ?_⟩
      · cases hv : call.variable? <;> simp [hv]
      · cases hc : call.constraint? <;> simp [hc]
      · cases ho : call.objective? <;> simp [ho, List.getLast?_cons]

/-- **Construction is consistent.** After every sequence of calls, refused ones among them, identifiers do
not repeat, expressions are finite sums over declared variables, the index and the reserved identifiers
agree with the lists, and the lists hold what the granted calls asked for, in their order. A finished model
keeps the lists, and finds its variables where the index of the draft has them. -/
theorem consistent_after (calls : List (Call K)) :
    (after calls).WellFormed ∧
      (∀ id j, (after calls).indexOf? id = some j ↔
        ((after calls).vars[j]?).map Variable.id = some id) ∧
      (after calls).vars = (granted empty calls).filterMap Call.variable? ∧
      (after calls).constraints = (granted empty calls).filterMap Call.constraint? ∧
      ∀ m, (after calls).finish = .ok m →
        m.WellFormed ∧
          (∀ id, m.indexOf? id = (after calls).indexOf? id) ∧
          (∀ id j, m.indexOf? id = some j ↔ (m.vars[j]?).map Variable.id = some id) ∧
          m.vars = (granted empty calls).filterMap Call.variable? ∧
          m.constraints = (granted empty calls).filterMap Call.constraint? ∧
          some m.objective = ((granted empty calls).filterMap Call.objective?).getLast? := by
  have hd := wellFormed_after calls
  have hindex (id : String) (j : ℕ) :
      (after calls).indexOf? id = some j ↔ ((after calls).vars[j]?).map Variable.id = some id := by
    rw [hd.index, positionOf?_eq_some_iff hd.nodup_vars]
  obtain ⟨hvars, hconstraints, hobjective⟩ := added_of_run (empty : Draft K) calls
  refine ⟨hd, hindex, hvars, hconstraints, fun m hm => ?_⟩
  obtain ⟨o, ho, rfl⟩ := finish_eq_ok.mp hm
  refine ⟨Model.Accepted.wellFormed ⟨calls, hm⟩, fun id => (hd.index id).symm, fun id j => ?_, hvars,
    hconstraints, ?_⟩
  · rw [← hindex, hd.index]
    rfl
  · rw [← ho, after, hobjective]
    exact Option.or_none

/-- Calls of which every kind is refused once, with a repeated variable, and their last objective. -/
def hesitant : List (Call Float) :=
  [.declare "x" .nonNegativeReals, .constrain "cap" [("x", 1), ("y", 1)] .le 4,
    .declare "y" .nonNegativeReals, .declare "x" .nonNegativeReals,
    .constrain "cap" [("x", 1), ("y", 1), ("x", 2)] .le 4, .constrain "cap" [] .eq 0,
    .constrain "open" [("y", 1)] .le (1 / 0), .pursue [("x", 1)] .minimize,
    .pursue [("z", 1)] .maximize, .pursue [("y", 2)] .maximize]

/-- The model that those calls build. -/
def settled : Model Float where
  vars := [⟨"x", .nonNegativeReals⟩, ⟨"y", .nonNegativeReals⟩]
  constraints := [⟨"cap", .ofList [("x", 1), ("y", 1), ("x", 2)], .le, 4⟩]
  objective := ⟨.ofList [("y", 2)], .maximize⟩

theorem consistent_after_hesitant :
    (after hesitant).finish = .ok settled ∧
      settled.WellFormed ∧
      (∀ id, settled.indexOf? id = (after hesitant).indexOf? id) ∧
      (∀ id j, settled.indexOf? id = some j ↔ (settled.vars[j]?).map Variable.id = some id) ∧
      settled.vars = (granted empty hesitant).filterMap Call.variable? ∧
      settled.constraints = (granted empty hesitant).filterMap Call.constraint? ∧
      some settled.objective = ((granted empty hesitant).filterMap Call.objective?).getLast? :=
  have hfinish : (after hesitant).finish = .ok settled := by decide +kernel
  ⟨hfinish, (consistent_after hesitant).2.2.2.2 settled hfinish⟩

end LinearProgram.Draft
