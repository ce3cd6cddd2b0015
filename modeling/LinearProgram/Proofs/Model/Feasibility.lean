import Mathlib
import LinearProgram.Model.Dense
import LinearProgram.Proofs.Rational.Dot
import LinearProgram.Proofs.Solution.Point

/-!
# Feasible assignments and reported points

What statements on the answers of a solver are about: assignments of numbers to the identifiers of a
model, which of them are feasible, and when one objective value is better than another. The dense form of
a model says the same of numbers by column (`dot_dense`), and a solution at a point reports what the
model's own expressions make of it.
-/

namespace LinearProgram

/-- Whether the objective value `a` is better than `b`. -/
def Sense.Better : Sense → (a b : ℚ) → Prop
  | .maximize, a, b => b < a
  | .minimize, a, b => a < b

/-- What a method that maximizes makes of objective values. -/
def Sense.score : Sense → ℚ → ℚ
  | .maximize, a => a
  | .minimize, a => -a

theorem Sense.better_iff {sense : Sense} {a b : ℚ} :
    sense.Better a b ↔ sense.score b < sense.score a := by
  cases sense with
  | maximize => rfl
  | minimize => exact neg_lt_neg_iff.symm

/-- No column is negative, and every row holds exactly. -/
structure DenseProgram.Feasible (p : DenseProgram ℚ) (x : ℕ → ℚ) : Prop where
  nonneg : ∀ j, 0 ≤ x j
  holds : ∀ r ∈ p.rows, r.relation.holds (dot r.coefficients x) r.rhs 0 = true

/-- Every variable has a value that is not negative, and every constraint holds exactly. -/
structure Model.Feasible (m : Model ℚ) (y : String → ℚ) : Prop where
  nonneg : ∀ v ∈ m.vars, 0 ≤ y v.id
  holds : ∀ c ∈ m.constraints, c.relation.holds (c.expression.evaluate y) c.bound 0 = true

/-- The objective value of an assignment. -/
def Model.value (m : Model ℚ) (y : String → ℚ) : ℚ :=
  m.objective.expression.evaluate y

/-- The solution reports a value for every variable and an activity for every constraint, and give or
take `margin` no value is negative and every activity stands to its bound as the constraint says. -/
structure Solution.Meets (s : Solution ℚ) (m : Model ℚ) (margin : ℚ) : Prop where
  listed : ∀ e ∈ s.values, -margin ≤ e.value
  values : ∀ v ∈ m.vars, ∃ x, s.value? v.id = some x ∧ -margin ≤ x
  activities : ∀ c ∈ m.constraints,
    ∃ a, s.activity? c.id = some a ∧ c.relation.holds a c.bound margin = true

/-! ## Columns -/

theorem lt_length_of_positionOf? {vars : List Variable} {id : String} {j : ℕ}
    (h : positionOf? vars id = some j) : j < vars.length :=
  (List.findIdx?_eq_some_iff_getElem.mp h).1

theorem id_of_positionOf? {vars : List Variable} {id : String} {j : ℕ}
    (h : positionOf? vars id = some j) : ∃ v, vars[j]? = some v ∧ v.id = id := by
  obtain ⟨hlt, hid, -⟩ := List.findIdx?_eq_some_iff_getElem.mp h
  exact ⟨vars[j], List.getElem?_eq_getElem hlt, by simpa using hid⟩

/-- The values of the columns as an assignment; undeclared identifiers have the value zero. -/
def Model.assignment (m : Model ℚ) (x : ℕ → ℚ) : String → ℚ := fun id =>
  match m.indexOf? id with
  | some j => x j
  | none => 0

/-- Only the columns of the variables count. -/
theorem Model.assignment_congr {m : Model ℚ} {x x' : ℕ → ℚ} (h : ∀ j < m.numVariables, x j = x' j) :
    m.assignment x = m.assignment x' := by
  funext id
  unfold assignment
  cases hj : m.indexOf? id with
  | none => rfl
  | some j => exact h j (lt_length_of_positionOf? hj)

/-- The values of an assignment by column; zero beyond the last variable. -/
def Model.columns (m : Model ℚ) (y : String → ℚ) : ℕ → ℚ := fun j =>
  match m.vars[j]? with
  | some v => y v.id
  | none => 0

theorem Model.assignment_columns (m : Model ℚ) (y : String → ℚ) {id : String}
    (h : id ∈ m.vars.map Variable.id) : m.assignment (m.columns y) id = y id := by
  cases hj : m.indexOf? id with
  | none => exact absurd h (positionOf?_eq_none_iff.mp hj)
  | some j =>
    obtain ⟨v, hv, hid⟩ := id_of_positionOf? hj
    simp only [assignment, hj, columns, hv, hid]

theorem Model.valueAt_eq_assignment (m : Model ℚ) (point : List ℚ) :
    m.valueAt point = m.assignment fun j => point.getD j 0 :=
  rfl

/-! ## Expressions by column -/

/-- The dense form of an expression has the value of the expression. -/
theorem Model.dot_dense (m : Model ℚ) (e : LinearExpr ℚ) (x : ℕ → ℚ) :
    dot (e.dense m.vars) x = e.evaluate (m.assignment x) := by
  have hfold (ts : List (Term ℚ)) (columns : List ℚ) (hlen : columns.length = m.vars.length) :
      dot (ts.foldl (Term.addTo m.vars) columns) x =
        ts.foldl (fun sum t => sum + t.coefficient * m.assignment x t.name) (dot columns x) := by
    induction ts generalizing columns with
    | nil => rfl
    | cons t ts ih =>
      rw [List.foldl_cons, List.foldl_cons, ih _ (by rw [Term.length_addTo, hlen])]
      congr 1
      unfold Term.addTo assignment indexOf?
      cases hj : positionOf? m.vars t.name with
      | none => rw [mul_zero, add_zero]
      | some j => exact dot_modify_add columns (hlen ▸ lt_length_of_positionOf? hj) _ x
  have hzero : (LinearExpr.emptySum : ℚ) = 0 := neg_zero
  rw [LinearExpr.dense, LinearExpr.evaluate, hzero]
  exact (hfold e.terms _ (by simp)).trans (by rw [dot_replicate_zero])

/-- A constraint holds at the values of the columns exactly when its dense form does. -/
theorem Model.holds_dense (m : Model ℚ) (c : Constraint ℚ) (x : ℕ → ℚ) (margin : ℚ) :
    (c.dense m.vars).relation.holds (dot (c.dense m.vars).coefficients x) (c.dense m.vars).rhs
        margin =
      c.relation.holds (c.expression.evaluate (m.assignment x)) c.bound margin := by
  rw [← m.dot_dense]
  rfl

/-- The dense rows hold exactly when the constraints do. -/
theorem Model.forall_holds_dense (m : Model ℚ) (x : ℕ → ℚ) (margin : ℚ) :
    (∀ r ∈ m.dense.rows, r.relation.holds (dot r.coefficients x) r.rhs margin = true) ↔
      ∀ c ∈ m.constraints,
        c.relation.holds (c.expression.evaluate (m.assignment x)) c.bound margin = true := by
  simp only [dense, List.forall_mem_map, m.holds_dense]

/-- The dense objective has the value of the objective. -/
theorem Model.dot_objective (m : Model ℚ) (x : ℕ → ℚ) :
    dot m.dense.objective x = m.value (m.assignment x) :=
  m.dot_dense m.objective.expression x

/-- Feasible columns are a feasible assignment. -/
theorem DenseProgram.Feasible.assignment {m : Model ℚ} {x : ℕ → ℚ} (h : m.dense.Feasible x) :
    m.Feasible (m.assignment x) where
  nonneg v _ := by
    unfold Model.assignment
    split
    · exact h.nonneg _
    · exact le_rfl
  holds := (m.forall_holds_dense x 0).mp h.holds

namespace Model.WellFormed

variable {m : Model ℚ} (h : m.WellFormed) {y : String → ℚ}
include h

/-- What holds of the value of every variable holds of every column, and conversely. -/
theorem forall_assignment_iff {P : ℚ → Prop} {x : ℕ → ℚ} :
    (∀ v ∈ m.vars, P (m.assignment x v.id)) ↔ ∀ j < m.numVariables, P (x j) := by
  have hvalue {j : ℕ} {v : Variable} (hv : m.vars[j]? = some v) : m.assignment x v.id = x j := by
    simp only [assignment, h.indexOf?_eq_some hv]
  constructor
  · intro hall j hj
    have hv := List.getElem?_eq_getElem hj
    rw [← hvalue hv]
    exact hall _ (List.mem_of_getElem? hv)
  · intro hall v hv
    obtain ⟨j, hj⟩ := List.mem_iff_getElem?.mp hv
    rw [hvalue hj]
    exact hall j (List.getElem?_eq_some_iff.mp hj).1

theorem value_columns : m.value (m.assignment (m.columns y)) = m.value y :=
  LinearExpr.evaluate_congr fun name hname =>
    m.assignment_columns y (h.objective.declared name hname)

/-- A feasible assignment has feasible columns. -/
theorem feasible_columns (hy : m.Feasible y) : m.dense.Feasible (m.columns y) where
  nonneg j := by
    unfold columns
    split
    · next v hv => exact hy.nonneg v (List.mem_of_getElem? hv)
    · exact le_rfl
  holds r hr := by
    obtain ⟨c, hc, rfl⟩ := List.mem_map.mp hr
    rw [m.holds_dense, LinearExpr.evaluate_congr fun name hname =>
      m.assignment_columns y ((h.constraints c hc).1.declared name hname)]
    exact hy.holds c hc

end Model.WellFormed

/-! ## Points as they are reported -/

namespace Solution

variable {m : Model ℚ} {status : Status} {point : List ℚ}

/-- What a solution at a point reports meets the model as closely as the point does. -/
theorem meets_atPoint_iff (h : m.WellFormed) (margin : ℚ) :
    (atPoint m status point).Meets m margin ↔
      (∀ v ∈ m.vars, -margin ≤ m.valueAt point v.id) ∧
        ∀ c ∈ m.constraints,
          c.relation.holds (c.expression.evaluate (m.valueAt point)) c.bound margin = true := by
  constructor
  · intro hmeets
    refine ⟨fun v hv => ?_, fun c hc => ?_⟩
    · obtain ⟨x, hx, hle⟩ := hmeets.values v hv
      rw [value?_atPoint h hv] at hx
      rwa [Option.some.inj hx]
    · obtain ⟨a, ha, hholds⟩ := hmeets.activities c hc
      rw [activity?_atPoint h hc] at ha
      rwa [Option.some.inj ha]
  · rintro ⟨hvalues, hactivities⟩
    refine ⟨?_, fun v hv => ⟨_, value?_atPoint h hv, hvalues v hv⟩,
      fun c hc => ⟨_, activity?_atPoint h hc, hactivities c hc⟩⟩
    intro e he
    obtain ⟨v, hv, rfl⟩ := List.mem_map.mp he
    exact hvalues v hv

theorem meets_atPoint (h : m.WellFormed) (hpoint : m.Feasible (m.valueAt point)) :
    (atPoint m status point).Meets m 0 := by
  refine (meets_atPoint_iff h 0).mpr ⟨?_, hpoint.holds⟩
  intro v hv
  rw [neg_zero]
  exact hpoint.nonneg v hv

end Solution

end LinearProgram
