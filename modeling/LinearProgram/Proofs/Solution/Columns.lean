import Mathlib
import LinearProgram.Proofs.Model.Feasibility

/-!
# One model, three readings

A model names the variables of its expressions, its dense form has a column for each of them, and a solution
lists values and activities under identifiers. At a point that gives the variables their values in the order
of declaration the three agree: what a solution reports for a constraint is the sum of products over the
columns of its row (`columns_agree`).
-/

namespace LinearProgram

/-- The dense program has the variables of the model as columns and its constraints as rows, in the order of
the model. -/
structure DenseProgram.Mirrors (p : DenseProgram ℚ) (m : Model ℚ) : Prop where
  columns : p.names = m.vars.map Variable.id
  rows : p.rows.map (fun r => (r.name, r.relation, r.rhs)) =
    m.constraints.map fun c => (c.id, c.relation, c.bound)
  sense : p.sense = m.objective.sense
  width : ∀ r ∈ p.rows, r.coefficients.length = m.numVariables
  width_objective : p.objective.length = m.numVariables

/-- The solution reports what the columns of the dense program give at the point: in the place of every row
and under its name, for the objective, and for every column under its name. Entries that the point lacks are
zeros. -/
structure Solution.ReadsOff (s : Solution ℚ) (p : DenseProgram ℚ) (point : List ℚ) : Prop where
  activities : s.activities = p.rows.map fun r => ⟨r.name, dot r.coefficients fun j => point.getD j 0⟩
  activity? : ∀ r ∈ p.rows, s.activity? r.name = some (dot r.coefficients fun j => point.getD j 0)
  objective? : s.objective? = some (dot p.objective fun j => point.getD j 0)
  value? : ∀ j name, p.names[j]? = some name → s.value? name = some (point.getD j 0)
  value?_of_not_mem : ∀ name, name ∉ p.names → s.value? name = none

theorem Model.mirrors_dense (m : Model ℚ) : m.dense.Mirrors m where
  columns := rfl
  rows := by rw [dense, List.map_map]; rfl
  sense := rfl
  width r hr := by
    obtain ⟨c, -, rfl⟩ := List.mem_map.mp hr
    exact LinearExpr.length_dense m.vars c.expression
  width_objective := LinearExpr.length_dense m.vars m.objective.expression

variable {m : Model ℚ} {point : List ℚ} {status : Status}

theorem Solution.value?_atPoint_of_not_mem {id : String} (hid : id ∉ m.vars.map Variable.id) :
    (atPoint m status point).value? id = none := by
  rw [value?, Option.map_eq_none_iff, List.find?_eq_none]
  intro e he heq
  obtain ⟨v, hv, rfl⟩ := List.mem_map.mp he
  exact hid (List.mem_map.mpr ⟨v, hv, by simpa using heq⟩)

/-- What a row gives at the point is the activity of its constraint. -/
theorem Model.dot_dense_point (m : Model ℚ) (e : LinearExpr ℚ) (point : List ℚ) :
    dot (e.dense m.vars) (fun j => point.getD j 0) = e.evaluate (m.valueAt point) :=
  m.dot_dense e _

theorem Solution.readsOff_atPoint (h : m.WellFormed) : (atPoint m status point).ReadsOff m.dense point where
  activities := by
    rw [Model.dense, List.map_map]
    refine List.map_congr_left fun c _ => ?_
    exact congrArg (Entry.mk c.id) (m.dot_dense_point c.expression point).symm
  activity? r hr := by
    obtain ⟨c, hc, rfl⟩ := List.mem_map.mp hr
    exact (activity?_atPoint h hc).trans (congrArg some (m.dot_dense_point c.expression point).symm)
  objective? := congrArg some (m.dot_dense_point m.objective.expression point).symm
  value? j name hname := by
    obtain ⟨v, hv, rfl⟩ := Option.map_eq_some_iff.mp (List.getElem?_map.symm.trans hname)
    rw [value?_atPoint h (List.mem_of_getElem? hv), Model.valueAt, h.indexOf?_eq_some hv]
  value?_of_not_mem name hname := value?_atPoint_of_not_mem hname

/-- Entries beyond the last variable make no difference, and a missing entry is a zero. -/
theorem Solution.atPoint_congr {point' : List ℚ}
    (h : ∀ j < m.numVariables, point'.getD j 0 = point.getD j 0) :
    atPoint m status point' = atPoint m status point := by
  have hvalue : m.valueAt point' = m.valueAt point := by
    rw [m.valueAt_eq_assignment, m.valueAt_eq_assignment]
    exact Model.assignment_congr h
  rw [atPoint, atPoint, hvalue]

/-- **Columns, expressions and reports agree.** The dense form of an accepted model has its variables as
columns and its constraints as rows. At every point, of whatever length, the solution reports what these
columns give, and the point is read only as far as there are variables. -/
theorem columns_agree (h : m.Accepted) (status : Status) (point : List ℚ) :
    m.dense.Mirrors m ∧
      (Solution.atPoint m status point).ReadsOff m.dense point ∧
      ∀ point', (∀ j < m.numVariables, point'.getD j 0 = point.getD j 0) →
        Solution.atPoint m status point' = Solution.atPoint m status point :=
  ⟨m.mirrors_dense, Solution.readsOff_atPoint h.wellFormed, fun _ => Solution.atPoint_congr⟩

/-- Minimize `3 y` where `y + x + y = 4`, a constraint named like a variable, and `0 ≤ 1`. -/
def namesakes : Model ℚ where
  vars := [⟨"x", .nonNegativeReals⟩, ⟨"y", .nonNegativeReals⟩]
  constraints := [⟨"x", ⟨[⟨"y", 2⟩, ⟨"x", 1⟩]⟩, .eq, 4⟩, ⟨"none", ⟨[]⟩, .le, 1⟩]
  objective := ⟨⟨[⟨"y", 3⟩]⟩, .minimize⟩

theorem columns_agree_namesakes :
    namesakes.Accepted ∧ namesakes.dense.Mirrors namesakes ∧
      (Solution.atPoint namesakes .timeLimitReached [4]).ReadsOff namesakes.dense [4] ∧
      ∀ point', (∀ j < namesakes.numVariables, point'.getD j 0 = [4].getD j 0) →
        Solution.atPoint namesakes .timeLimitReached point' =
          Solution.atPoint namesakes .timeLimitReached [4] :=
  have haccepted : namesakes.Accepted :=
    ⟨[.declare "x" .nonNegativeReals, .declare "y" .nonNegativeReals,
      .constrain "x" [("y", 1), ("x", 1), ("y", 1)] .eq 4, .constrain "none" [] .le 1,
      .pursue [("y", 3)] .minimize], by decide +kernel⟩
  ⟨haccepted, columns_agree haccepted .timeLimitReached [4]⟩

end LinearProgram
