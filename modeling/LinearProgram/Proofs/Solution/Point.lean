import Mathlib
import LinearProgram.Solution.Basic
import LinearProgram.Proofs.Model.Construction

/-!
# Solutions at a point

A solution at a point lists one entry for every variable and one for every constraint, in the order of the
model. As identifiers do not repeat, each entry is found under its own.
-/

namespace LinearProgram

variable {K : Type}

theorem LinearExpr.evaluate_congr [Scalar K] {e : LinearExpr K} {y z : String → K}
    (h : ∀ name ∈ e.names, y name = z name) : e.evaluate y = e.evaluate z := by
  unfold evaluate
  refine List.foldl_ext _ _ _ ?_
  intro sum t ht
  rw [h t.name (List.mem_map.mpr ⟨t, ht, rfl⟩)]

namespace Solution

/-- Looking up an identifier in a list of entries made from distinct identifiers. -/
private theorem find?_entry {α : Type} (id : α → String) (value : α → K) {as : List α}
    (hnd : (as.map id).Nodup) {a : α} (ha : a ∈ as) :
    (((as.map fun a => Entry.mk (id a) (value a)).find? fun e => e.id == id a).map Entry.value) =
      some (value a) := by
  induction as with
  | nil => exact absurd ha List.not_mem_nil
  | cons b bs ih =>
    rw [List.map_cons, List.nodup_cons] at hnd
    rw [List.map_cons]
    rcases List.mem_cons.mp ha with rfl | ha
    · rw [List.find?_cons_of_pos (by simp)]
      rfl
    · have hne : id b ≠ id a := by
        intro heq
        exact hnd.1 (heq ▸ List.mem_map.mpr ⟨a, ha, rfl⟩)
      rw [List.find?_cons_of_neg (by simpa using hne)]
      exact ih hnd.2 ha

variable [Scalar K] {m : Model K} {status : Status} {point : List K}

theorem value?_atPoint (h : m.WellFormed) {v : Variable} (hv : v ∈ m.vars) :
    (atPoint m status point).value? v.id = some (m.valueAt point v.id) :=
  find?_entry Variable.id (fun v => m.valueAt point v.id) h.nodup_vars hv

theorem activity?_atPoint (h : m.WellFormed) {c : Constraint K} (hc : c ∈ m.constraints) :
    (atPoint m status point).activity? c.id = some (c.expression.evaluate (m.valueAt point)) :=
  find?_entry Constraint.id (fun c => c.expression.evaluate (m.valueAt point)) h.nodup_constraints hc

end Solution

end LinearProgram
