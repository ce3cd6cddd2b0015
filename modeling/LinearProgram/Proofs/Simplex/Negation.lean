import Mathlib
import LinearProgram.Proofs.Model.Merging
import LinearProgram.Simplex.Solver

/-!
# Minimizing is maximizing the negated objective

Negating the objective and exchanging the sense leaves the problem as it is. The sense enters where the
starting tableau takes over the costs, and there the two negations cancel (`ofProgram_negated`), so that both
runs are one run; the objective value is computed from the model and comes out negated
(`negation_exchanges_senses`). Arithmetic is exact.
-/

namespace LinearProgram

/-! ## What is negated -/

/-- The other sense. -/
def Sense.opposite : Sense → Sense
  | .maximize => .minimize
  | .minimize => .maximize

def Term.negated (t : Term ℚ) : Term ℚ :=
  ⟨t.name, -t.coefficient⟩

/-- The expression with every coefficient negated. -/
def LinearExpr.negated (e : LinearExpr ℚ) : LinearExpr ℚ :=
  ⟨e.terms.map Term.negated⟩

/-- The negated objective under the other sense. -/
def Objective.negated (o : Objective ℚ) : Objective ℚ :=
  ⟨o.expression.negated, o.sense.opposite⟩

/-- The model with its objective negated, under the other sense. -/
def Model.negated (m : Model ℚ) : Model ℚ :=
  { m with objective := m.objective.negated }

/-- The draft with its objective negated, under the other sense. -/
def Draft.negated (d : Draft ℚ) : Draft ℚ :=
  { d with objective? := d.objective?.map Objective.negated }

/-- The call that asks for the negated objective under the other sense; other calls stay as they are. -/
def Draft.Call.negated : Draft.Call ℚ → Draft.Call ℚ
  | .pursue products sense => .pursue (products.map fun p => (p.1, -p.2)) sense.opposite
  | .declare id domain => .declare id domain
  | .constrain id products relation bound => .constrain id products relation bound

/-! ## Expressions -/

namespace LinearExpr

theorem names_negated (e : LinearExpr ℚ) : e.negated.names = e.names :=
  List.map_map

/-- Negated products are added to the negated expression. -/
theorem add_negated (e : LinearExpr ℚ) (name : String) (c : ℚ) :
    e.negated.add name (-c) = (e.add name c).negated := by
  have hmerge (ts : List (Term ℚ)) :
      Term.merge name (-c) (ts.map Term.negated) = (Term.merge name c ts).map Term.negated := by
    induction ts with
    | nil => rfl
    | cons t ts ih =>
      rw [List.map_cons, Term.merge, Term.merge]
      by_cases h : t.name = name
      · have hsum : -t.coefficient + -c = -(t.coefficient + c) := (neg_add t.coefficient c).symm
        rw [if_pos h, if_pos (show t.negated.name = name from h), List.map_cons]
        exact congrArg (⟨t.name, ·⟩ :: ts.map Term.negated) hsum
      · rw [if_neg h, if_neg (show ¬t.negated.name = name from h), List.map_cons, ih]
  exact congrArg LinearExpr.mk (hmerge e.terms)

/-- Negated products make the negated expression. -/
theorem ofList_negated (products : List (String × ℚ)) :
    ofList (products.map fun p => (p.1, -p.2)) = (ofList products).negated := by
  induction products using List.reverseRecOn with
  | nil => rfl
  | append_singleton products p ih =>
    rw [List.map_append, List.map_singleton, ofList_concat, ofList_concat, ih, add_negated]

theorem evaluate_negated (e : LinearExpr ℚ) (value : String → ℚ) :
    e.negated.evaluate value = -e.evaluate value := by
  have hterm : (fun t : Term ℚ => t.negated.coefficient * value t.negated.name) =
      fun t => -(t.coefficient * value t.name) :=
    funext fun t => neg_mul t.coefficient (value t.name)
  rw [evaluate_eq_sum, evaluate_eq_sum, negated, List.map_map, Function.comp_def, hterm, List.sum_neg,
    List.map_map]
  rfl

/-- The columns of a negated expression are negated. -/
theorem dense_negated (vars : List Variable) (e : LinearExpr ℚ) :
    e.negated.dense vars = (e.dense vars).map fun c => -c := by
  have hadd (t : Term ℚ) (columns : List ℚ) :
      t.negated.addTo vars (columns.map fun c => -c) = (t.addTo vars columns).map fun c => -c := by
    unfold Term.addTo Term.negated
    cases positionOf? vars t.name with
    | none => rfl
    | some j =>
      refine List.ext_getElem? fun i => ?_
      simp only [List.getElem?_map, List.getElem?_modify]
      cases columns[i]? with
      | none => rfl
      | some c =>
        by_cases hij : j = i
        · simp only [hij, if_true, Option.map_eq_map, Option.map_some, neg_add]
        · simp only [hij, if_false, Option.map_eq_map, Option.map_some]
  have hfold (ts : List (Term ℚ)) (columns : List ℚ) :
      (ts.map Term.negated).foldl (Term.addTo vars) (columns.map fun c => -c) =
        (ts.foldl (Term.addTo vars) columns).map fun c => -c := by
    induction ts generalizing columns with
    | nil => rfl
    | cons t ts ih => rw [List.map_cons, List.foldl_cons, List.foldl_cons, hadd, ih]
  have hzeros : (List.replicate vars.length (0 : ℚ)).map (fun c => -c) = List.replicate vars.length 0 := by
    rw [List.map_replicate, neg_zero]
  rw [dense, dense, ← hfold, hzeros]
  rfl

end LinearExpr

/-! ## Construction -/

namespace Draft

/-- A negated call on a negated draft is answered as the call is on the draft, and a granted one leads to the
negated draft. -/
theorem attempt_negated (d : Draft ℚ) (call : Call ℚ) :
    call.negated.attempt d.negated = (call.attempt d).map negated := by
  have hcheck (place : Place) (e : LinearExpr ℚ) (finite : Bool) :
      d.negated.check place e finite = d.check place e finite := rfl
  cases call with
  | declare id domain =>
    simp only [Call.negated, Call.attempt, declare]
    rw [apply_ite (Except.map negated)]
    rfl
  | constrain id products relation bound =>
    simp only [Call.negated, Call.attempt, constrain, hcheck]
    rw [apply_ite (Except.map negated)]
    refine if_congr Iff.rfl rfl ?_
    cases d.check (.constraint id) (LinearExpr.ofList products) (Scalar.isFinite bound) <;> rfl
  | pursue products sense =>
    have hundeclared (e : LinearExpr ℚ) : d.undeclared? e.negated = d.undeclared? e := by
      rw [undeclared?, undeclared?, LinearExpr.names_negated]
    have hfinite (e : LinearExpr ℚ) : e.negated.isFinite = e.isFinite := List.all_map
    simp only [Call.negated, Call.attempt, pursue, LinearExpr.ofList_negated, hcheck]
    unfold check
    rw [hundeclared, hfinite]
    cases d.undeclared? (LinearExpr.ofList products) with
    | some name => rfl
    | none => cases (LinearExpr.ofList products).isFinite && true <;> rfl

theorem perform_negated (d : Draft ℚ) (call : Call ℚ) :
    call.negated.perform d.negated = (call.perform d).negated := by
  rw [Call.perform, Call.perform, attempt_negated]
  cases call.attempt d <;> rfl

theorem after_negated (calls : List (Call ℚ)) : after (calls.map Call.negated) = (after calls).negated := by
  have hfold (d : Draft ℚ) :
      (calls.map Call.negated).foldl Call.perform d.negated = (calls.foldl Call.perform d).negated := by
    induction calls generalizing d with
    | nil => rfl
    | cons call calls ih => rw [List.map_cons, List.foldl_cons, List.foldl_cons, perform_negated, ih]
  exact hfold empty

/-- Negated calls build the negated model. -/
theorem finish_negated {calls : List (Call ℚ)} {m : Model ℚ} (hm : (after calls).finish = .ok m) :
    (after (calls.map Call.negated)).finish = .ok m.negated := by
  obtain ⟨o, ho, rfl⟩ := finish_eq_ok.mp hm
  rw [after_negated]
  exact finish_eq_ok.mpr ⟨o.negated, congrArg (Option.map Objective.negated) ho, rfl⟩

end Draft

/-! ## The run and the answer -/

namespace Simplex

open Tableau

/-- Both models start from the same tableau: what the exchanged sense negates was negated before. -/
theorem ofProgram_negated (m : Model ℚ) : ofProgram m.negated.dense = ofProgram m.dense := by
  have hobjective : m.negated.dense.objective = m.dense.objective.map fun c => -c :=
    LinearExpr.dense_negated m.vars m.objective.expression
  have hsense : m.negated.dense.sense = m.dense.sense.opposite := rfl
  have hcosts : startingCosts m.negated.dense = startingCosts m.dense := by
    unfold startingCosts
    rw [hobjective, hsense]
    cases m.dense.sense with
    | maximize =>
      rw [Sense.opposite, List.map_map]
      exact List.map_id'' neg_neg _
    | minimize => rfl
  have hrows : m.negated.dense.rows = m.dense.rows := rfl
  have hwidth : m.negated.dense.numVariables = m.dense.numVariables := rfl
  unfold ofProgram
  rw [hcosts, hrows, hwidth]

theorem runOn_negated (s : Settings ℚ) (clock : Clock ℚ) (m : Model ℚ) (limits : Limits ℚ) :
    runOn s clock m.negated limits = runOn s clock m limits := by
  rw [runOn, runOn, run_eq, run_eq, ofProgram_negated]

/-- At one point both models have the same values and activities and opposite objective values. -/
theorem atPoint_negated (m : Model ℚ) (status : Status) (point : List ℚ) :
    Solution.atPoint m.negated status point =
      { Solution.atPoint m status point with
        objective? := (Solution.atPoint m status point).objective?.map fun x => -x } := by
  have hobjective : m.negated.objective.expression.evaluate (m.negated.valueAt point) =
      -m.objective.expression.evaluate (m.valueAt point) :=
    LinearExpr.evaluate_negated m.objective.expression (m.valueAt point)
  rw [Solution.atPoint, hobjective]
  rfl

theorem solve_negated (s : Settings ℚ) (clock : Clock ℚ) (m : Model ℚ) (limits : Limits ℚ) :
    solve s clock m.negated limits =
      { solve s clock m limits with
        objective? := (solve s clock m limits).objective?.map fun x => -x } := by
  rw [solve, solve, runOn_negated]
  cases (runOn s clock m limits).verdict with
  | optimal point => exact atPoint_negated m .optimal point
  | infeasible => rfl
  | unbounded => rfl
  | timeLimit incumbent? =>
    cases incumbent? with
    | some point => exact atPoint_negated m .timeLimitReached point
    | none => rfl
  | pivotLimit => rfl

/-- **Minimizing is maximizing the negated objective.** Where calls build a model, the same calls with every
objective negated and its sense exchanged build the negated model. Both models have one starting tableau and
one run, pivot by pivot and phase by phase, whatever the settings, the clock and the limits. The answers have
the same status, message, values and activities, and objective values of opposite sign. -/
theorem negation_exchanges_senses {calls : List (Draft.Call ℚ)} {m : Model ℚ}
    (hm : (Draft.after calls).finish = .ok m) (s : Settings ℚ) (clock : Clock ℚ) (limits : Limits ℚ) :
    (Draft.after (calls.map .negated)).finish = .ok m.negated ∧
      ofProgram m.negated.dense = ofProgram m.dense ∧
      runOn s clock m.negated limits = runOn s clock m limits ∧
      solve s clock m.negated limits =
        { solve s clock m limits with
          objective? := (solve s clock m limits).objective?.map fun x => -x } :=
  ⟨Draft.finish_negated hm, ofProgram_negated m, runOn_negated s clock m limits,
    solve_negated s clock m limits⟩

/-- Minimize `2 x + 3 y` where `x + y ≥ 4` and `x ≤ 3`. -/
def sparing : Model ℚ where
  vars := [⟨"x", .nonNegativeReals⟩, ⟨"y", .nonNegativeReals⟩]
  constraints :=
    [⟨"enough", ⟨[⟨"x", 1⟩, ⟨"y", 1⟩]⟩, .ge, 4⟩, ⟨"cap", ⟨[⟨"x", 1⟩]⟩, .le, 3⟩]
  objective := ⟨⟨[⟨"x", 2⟩, ⟨"y", 3⟩]⟩, .minimize⟩

/-- With the shipped settings the least value is nine, and the greatest of the negated objective minus nine. -/
theorem negation_exchanges_senses_sparing :
    let calls : List (Draft.Call ℚ) :=
      [.declare "x" .nonNegativeReals, .declare "y" .nonNegativeReals,
        .constrain "enough" [("x", 1), ("y", 1)] .ge 4, .pursue [("x", 1)] .maximize,
        .constrain "cap" [("x", 1)] .le 3, .pursue [("x", 2), ("y", 3)] .minimize]
    (Draft.after calls).finish = .ok sparing ∧
      (Draft.after (calls.map .negated)).finish = .ok sparing.negated ∧
      (runOn .shipped (fun _ => .never) sparing .unset).steps =
        [.pivot 1 0 false, .pivot 0 1 false, .converged 2, .converged 0] ∧
      runOn .shipped (fun _ => .never) sparing.negated .unset =
        runOn .shipped (fun _ => .never) sparing .unset ∧
      (solve .shipped (fun _ => .never) sparing .unset).objective? = some 9 ∧
      (solve .shipped (fun _ => .never) sparing.negated .unset).objective? = some (-9) := by
  intro calls
  have hfinish : (Draft.after calls).finish = .ok sparing := by decide +kernel
  have hvalue : (solve .shipped (fun _ => .never) sparing .unset).objective? = some 9 := by decide +kernel
  obtain ⟨hnegated, -, hrun, hsolve⟩ :=
    negation_exchanges_senses hfinish .shipped (fun _ => .never) .unset
  refine ⟨hfinish, hnegated, by decide +kernel, hrun, hvalue, ?_⟩
  rw [hsolve, hvalue]
  rfl

end Simplex

end LinearProgram
