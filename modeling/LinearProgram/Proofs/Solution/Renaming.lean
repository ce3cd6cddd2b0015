import Mathlib
import LinearProgram.Engine.SolutionFile
import LinearProgram.Simplex.Solver
import LinearProgram.Proofs.Model.Renaming
import LinearProgram.Proofs.Solution.Point

/-!
# Renamed solutions

What is made of a model knows its variables by their positions: the dense program, the file for the
engine, the values at a point. Identifiers that stay apart stand for the same positions after a renaming, so
that the numbers in what is made of the renamed model are the same, and so is the answer to it but for the
identifiers under which it lists values (`renaming_keeps_answer`).
-/

namespace LinearProgram

variable {K : Type} {r : Renaming}

/-! ## What is renamed -/

def DenseRow.rename (ρ : String → String) (row : DenseRow K) : DenseRow K :=
  { row with name := ρ row.name }

/-- The dense program with its names renamed, and with the same numbers. -/
def DenseProgram.rename (r : Renaming) (p : DenseProgram K) : DenseProgram K where
  names := p.names.map r.vars
  objective := p.objective
  sense := p.sense
  rows := p.rows.map (DenseRow.rename r.constraints)

def Entry.rename (ρ : String → String) (e : Entry K) : Entry K :=
  ⟨ρ e.id, e.value⟩

/-- The solution with its identifiers renamed, and with the same values in the same places. -/
def Solution.rename (r : Renaming) (s : Solution K) : Solution K where
  status := s.status
  objective? := s.objective?
  values := s.values.map (Entry.rename r.vars)
  activities := s.activities.map (Entry.rename r.constraints)
  message? := s.message?

/-- What is made of renamed things is the renamed list of what is made of the things, if that holds of each. -/
theorem map_map_comm {α β γ δ : Type} {as : List α} {f : α → β} {g : β → δ} {h : α → γ} {k : γ → δ}
    (hcomm : ∀ a ∈ as, g (f a) = k (h a)) : (as.map f).map g = (as.map h).map k := by
  rw [List.map_map, List.map_map]
  exact List.map_congr_left hcomm

theorem map_zipIdx_map {α β γ : Type} {as : List α} {f : α → β} {g : β × ℕ → γ} {h : α × ℕ → γ}
    (hsame : ∀ a ∈ as, ∀ i, g (f a, i) = h (a, i)) : (as.map f).zipIdx.map g = as.zipIdx.map h := by
  rw [List.zipIdx_map, List.map_map]
  exact List.map_congr_left fun c hc => hsame c.1 (List.fst_mem_of_mem_zipIdx hc) c.2

/-! ## Positions -/

/-- An identifier has the same position among renamed variables. -/
theorem positionOf?_rename {ρ : String → String} {V : Set String} (hρ : Set.InjOn ρ V)
    {vars : List Variable} (hvars : ∀ v ∈ vars, v.id ∈ V) {id : String} (hid : id ∈ V) :
    positionOf? (vars.map (Variable.rename ρ)) (ρ id) = positionOf? vars id := by
  unfold positionOf?
  induction vars with
  | nil => rfl
  | cons v vs ih =>
    obtain ⟨hv, hvs⟩ := List.forall_mem_cons.mp hvars
    have hbeq : ((v.rename ρ).id == ρ id) = (v.id == id) := by
      rw [Bool.eq_iff_iff, beq_iff_eq, beq_iff_eq]
      exact hρ.eq_iff hv hid
    rw [List.map_cons, List.findIdx?_cons, List.findIdx?_cons, hbeq, ih hvs]

namespace Model

theorem numVariables_rename (m : Model K) : (m.rename r).numVariables = m.numVariables :=
  List.length_map _

theorem numConstraints_rename (m : Model K) : (m.rename r).numConstraints = m.numConstraints :=
  List.length_map _

variable {m : Model K} (hr : r.KeepsApart m)
include hr

theorem indexOf?_rename {id : String} (hid : id ∈ m.vars.map Variable.id) :
    (m.rename r).indexOf? (r.vars id) = m.indexOf? id :=
  positionOf?_rename hr.vars (fun _ hv => List.mem_map_of_mem hv) hid

theorem valueAt_rename [Zero K] (point : List K) {id : String} (hid : id ∈ m.vars.map Variable.id) :
    (m.rename r).valueAt point (r.vars id) = m.valueAt point id := by
  rw [valueAt, valueAt, indexOf?_rename hr hid]

end Model

section

variable [Scalar K] {m : Model K} (hr : r.KeepsApart m)
include hr

/-! ## The dense program -/

theorem LinearExpr.dense_rename {e : LinearExpr K} (he : ∀ name ∈ e.names, name ∈ m.vars.map Variable.id) :
    (e.rename r.vars).dense (m.rename r).vars = e.dense m.vars := by
  have hlength : (m.rename r).vars.length = m.vars.length := List.length_map _
  rw [dense, dense, hlength, rename, List.foldl_map]
  refine List.foldl_ext _ _ _ fun columns t ht => ?_
  have hindex := Model.indexOf?_rename hr (he t.name (List.mem_map_of_mem ht))
  unfold Model.indexOf? at hindex
  rw [Term.addTo, Term.addTo, Term.rename, hindex]

theorem Model.dense_rename (hm : m.WellFormed) : (m.rename r).dense = m.dense.rename r := by
  have hnames : (m.rename r).dense.names = (m.dense.rename r).names := map_map_comm fun _ _ => rfl
  have hobjective : (m.rename r).dense.objective = (m.dense.rename r).objective :=
    LinearExpr.dense_rename hr hm.objective.declared
  have hrow (c : Constraint K) (hc : c ∈ m.constraints) :
      (c.rename r).dense (m.rename r).vars = (c.dense m.vars).rename r.constraints :=
    congrArg (DenseRow.mk _ · _ _) (LinearExpr.dense_rename hr (hm.constraints c hc).1.declared)
  have hrows : (m.rename r).dense.rows = (m.dense.rename r).rows := map_map_comm hrow
  exact (DenseProgram.mk.injEq ..).mpr ⟨hnames, hobjective, rfl, hrows⟩

/-! ## The values at a point -/

theorem LinearExpr.evaluate_rename (point : List K) {e : LinearExpr K}
    (he : ∀ name ∈ e.names, name ∈ m.vars.map Variable.id) :
    (e.rename r.vars).evaluate ((m.rename r).valueAt point) = e.evaluate (m.valueAt point) := by
  calc (e.rename r.vars).evaluate ((m.rename r).valueAt point)
      = e.evaluate (fun name => (m.rename r).valueAt point (r.vars name)) := List.foldl_map
    _ = e.evaluate (m.valueAt point) :=
      evaluate_congr fun name hname => Model.valueAt_rename hr point (he name hname)

theorem Solution.atPoint_rename (hm : m.WellFormed) (status : Status) (point : List K) :
    atPoint (m.rename r) status point = (atPoint m status point).rename r := by
  have hvalue (v : Variable) (hv : v ∈ m.vars) :
      Entry.mk (r.vars v.id) ((m.rename r).valueAt point (r.vars v.id)) =
        (Entry.mk v.id (m.valueAt point v.id)).rename r.vars :=
    congrArg (Entry.mk _) (Model.valueAt_rename hr point (List.mem_map_of_mem hv))
  have hactivity (c : Constraint K) (hc : c ∈ m.constraints) :
      Entry.mk (r.constraints c.id)
          ((c.expression.rename r.vars).evaluate ((m.rename r).valueAt point)) =
        (Entry.mk c.id (c.expression.evaluate (m.valueAt point))).rename r.constraints :=
    congrArg (Entry.mk _) (LinearExpr.evaluate_rename hr point (hm.constraints c hc).1.declared)
  have hobjective := LinearExpr.evaluate_rename hr point hm.objective.declared
  have hvalues : (atPoint (m.rename r) status point).values =
      (atPoint m status point).values.map (Entry.rename r.vars) := map_map_comm hvalue
  have hactivities : (atPoint (m.rename r) status point).activities =
      (atPoint m status point).activities.map (Entry.rename r.constraints) := map_map_comm hactivity
  exact (Solution.mk.injEq ..).mpr ⟨rfl, congrArg some hobjective, hvalues, hactivities, rfl⟩

theorem Solution.timeLimitReached_rename (hm : m.WellFormed) (incumbent? : Option (List K)) :
    timeLimitReached (m.rename r) incumbent? = (timeLimitReached m incumbent?).rename r := by
  cases incumbent? with
  | none => rfl
  | some point => exact atPoint_rename hr hm .timeLimitReached point

end

/-! ## The method -/

namespace Simplex

variable [Scalar K]

theorem layOut_rename (ρ : String → String) (added : ℕ) (rows : List (DenseRow K))
    (slack artificial : ℕ) :
    Tableau.layOut added (rows.map (DenseRow.rename ρ)) slack artificial =
      Tableau.layOut added rows slack artificial := by
  induction rows generalizing slack artificial with
  | nil => rfl
  | cons row rows ih =>
    simp only [List.map_cons, Tableau.layOut, ih]
    rfl

theorem oriented_rename (ρ : String → String) (row : DenseRow K) :
    (row.rename ρ).oriented = row.oriented.rename ρ := by
  unfold DenseRow.oriented
  rw [apply_ite (DenseRow.rename ρ)]
  rfl

theorem ofProgram_rename (p : DenseProgram K) :
    Tableau.ofProgram (p.rename r) = Tableau.ofProgram p := by
  have horiented : (p.rename r).rows.map DenseRow.oriented =
      (p.rows.map DenseRow.oriented).map (DenseRow.rename r.constraints) :=
    map_map_comm fun row _ => oriented_rename r.constraints row
  have hwidth : (p.rename r).numVariables = p.numVariables := List.length_map _
  have hcosts : Tableau.startingCosts (p.rename r) = Tableau.startingCosts p := rfl
  unfold Tableau.ofProgram
  simp only [horiented, layOut_rename, List.countP_map, hwidth, hcosts]
  rfl

/-- The method sees no names. -/
theorem run_rename (s : Settings K) (deadline : Deadline) (p : DenseProgram K) :
    run s deadline (p.rename r) = run s deadline p := by
  rw [run_eq, run_eq, ofProgram_rename]

/-- The answer to a renamed model is the renamed answer. -/
theorem solve_rename {m : Model K} (hr : r.KeepsApart m) (hm : m.WellFormed) (s : Settings K)
    (clock : Clock K) (limits : Limits K) :
    solve s clock (m.rename r) limits = (solve s clock m limits).rename r := by
  rw [solve, solve, runOn, runOn, Model.dense_rename hr hm, run_rename]
  cases (run s (deadline clock limits) m.dense).verdict with
  | optimal point => exact Solution.atPoint_rename hr hm .optimal point
  | infeasible => rfl
  | unbounded => rfl
  | timeLimit incumbent? => exact Solution.timeLimitReached_rename hr hm incumbent?
  | pivotLimit => rfl

end Simplex

/-! ## The files -/

section Engine

variable {m : Model Float} (hr : r.KeepsApart m) (hm : m.WellFormed)
include hr

theorem ModelFile.expression_rename {e : LinearExpr Float}
    (he : ∀ name ∈ e.names, name ∈ m.vars.map Variable.id) :
    expression (m.rename r) (e.rename r.vars) = expression m e := by
  have hproducts : (e.rename r.vars).terms.filterMap (fun t =>
        ((m.rename r).indexOf? t.name).map fun j => product j t.coefficient) =
      e.terms.filterMap fun t => (m.indexOf? t.name).map fun j => product j t.coefficient := by
    rw [LinearExpr.rename, List.filterMap_map]
    refine List.filterMap_congr fun t ht => ?_
    exact congrArg (Option.map fun j => product j t.coefficient)
      (Model.indexOf?_rename hr (he t.name (List.mem_map_of_mem ht)))
  rw [expression, expression, hproducts]

include hm

/-- The file for the engine names variables and constraints by their positions. -/
theorem ModelFile.text_rename : text (m.rename r) = text m := by
  have hheader : header (m.rename r) = header m := by
    unfold header
    rw [Model.numVariables_rename, Model.numConstraints_rename]
  have hsense : (m.rename r).objective.sense = m.objective.sense := rfl
  have hobjective : expression (m.rename r) (m.rename r).objective.expression =
      expression m m.objective.expression := expression_rename hr hm.objective.declared
  have hline (c : Constraint Float) (hc : c ∈ m.constraints) (i : ℕ) :
      constraintLine (m.rename r) (c.rename r) i = constraintLine m c i := by
    have hexpression := expression_rename hr (hm.constraints c hc).1.declared
    rw [constraintLine, constraintLine, Constraint.rename, hexpression]
  have hconstraints : (m.rename r).constraints.zipIdx.map (fun c => constraintLine (m.rename r) c.1 c.2) =
      m.constraints.zipIdx.map fun c => constraintLine m c.1 c.2 := map_zipIdx_map hline
  have hbounds : (m.rename r).vars.zipIdx.map (fun v => boundLine v.1 v.2) =
      m.vars.zipIdx.map fun v => boundLine v.1 v.2 := map_zipIdx_map fun _ _ _ => rfl
  have hlines : lines (m.rename r) = lines m := by
    rw [lines, lines, hheader, hsense, hobjective, hconstraints, hbounds]
  rw [text, text, hlines]

theorem SolutionFile.toSolution_rename (file : SolutionFile) :
    file.toSolution (m.rename r) = (file.toSolution m).rename r := by
  unfold toSolution
  cases statusOf file.status with
  | optimal =>
    cases file.point? with
    | none => rfl
    | some point => exact Solution.atPoint_rename hr hm .optimal point
  | timeLimitReached => exact Solution.timeLimitReached_rename hr hm file.point?
  | infeasible => rfl
  | unbounded => rfl
  | error => rfl

theorem SolutionFile.solutionOf_rename (text : String) :
    solutionOf (m.rename r) text = (solutionOf m text).rename r := by
  rw [solutionOf, solutionOf, Model.numVariables_rename]
  cases read m.numVariables text with
  | error e => rfl
  | ok file => exact toSolution_rename hr hm file

end Engine

/-! ## The theorem -/

/-- **Identifiers do not influence the answer.** A renaming under which the identifiers of a model stay
apart turns the calls that built it into calls that are all granted and build the renamed model. The file for
the engine is the same, character by character, and the dense program differs in its names only. Under the
same settings, clock and limits the simplex method answers the same, and so do the solutions read from a
file of the engine, except that values stand under the new identifiers. -/
theorem renaming_keeps_answer {calls : List (Draft.Call Float)} {m : Model Float}
    (hm : (Draft.after calls).finish = .ok m) (r : Renaming) (hr : r.KeepsApart m) :
    (Draft.granted .empty ((Draft.granted .empty calls).map (.rename r)) =
          (Draft.granted .empty calls).map (.rename r) ∧
        (Draft.after ((Draft.granted .empty calls).map (.rename r))).finish = .ok (m.rename r)) ∧
      ModelFile.text (m.rename r) = ModelFile.text m ∧
      (m.rename r).dense = m.dense.rename r ∧
      (∀ settings clock limits, Simplex.solve settings clock (m.rename r) limits =
        (Simplex.solve settings clock m limits).rename r) ∧
      ∀ text, SolutionFile.solutionOf (m.rename r) text = (SolutionFile.solutionOf m text).rename r :=
  have hformed := Model.Accepted.wellFormed ⟨calls, hm⟩
  ⟨Draft.finish_rename hm hr, ModelFile.text_rename hr hformed, Model.dense_rename hr hformed,
    Simplex.solve_rename hr hformed, SolutionFile.solutionOf_rename hr hformed⟩

/-- Names that the file for the engine uses too, and there for other things. -/
def misleading : Renaming where
  vars id := if id = "x" then "x1" else "x0"
  constraints _ := "obj"

theorem renaming_keeps_answer_misleading :
    (Draft.after Draft.hesitant).finish = .ok Draft.settled ∧
      misleading.KeepsApart Draft.settled ∧
      (Draft.after ((Draft.granted .empty Draft.hesitant).map (.rename misleading))).finish =
        .ok (Draft.settled.rename misleading) ∧
      ModelFile.text (Draft.settled.rename misleading) = ModelFile.text Draft.settled ∧
      (Draft.settled.rename misleading).dense = Draft.settled.dense.rename misleading ∧
      (∀ settings clock limits, Simplex.solve settings clock (Draft.settled.rename misleading) limits =
        (Simplex.solve settings clock Draft.settled limits).rename misleading) ∧
      ∀ text, SolutionFile.solutionOf (Draft.settled.rename misleading) text =
        (SolutionFile.solutionOf Draft.settled text).rename misleading :=
  have hfinish : (Draft.after Draft.hesitant).finish = .ok Draft.settled := by decide +kernel
  have hapart : misleading.KeepsApart Draft.settled := by
    constructor
    · intro id hid id' hid' heq
      have hxy (id : String) (h : id ∈ Draft.settled.vars.map Variable.id) : id = "x" ∨ id = "y" := by
        simpa [Draft.settled] using h
      rcases hxy id hid with rfl | rfl <;> rcases hxy id' hid' with rfl | rfl <;>
        first | rfl | exact absurd heq (by decide)
    · intro id hid id' hid' _
      have hcap (id : String) (h : id ∈ Draft.settled.constraints.map Constraint.id) : id = "cap" := by
        simpa [Draft.settled] using h
      rw [hcap id hid, hcap id' hid']
  have h := renaming_keeps_answer hfinish misleading hapart
  ⟨hfinish, hapart, h.1.2, h.2⟩

end LinearProgram
