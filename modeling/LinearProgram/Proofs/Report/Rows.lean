import Mathlib
import LinearProgram.Report.Text
import LinearProgram.Proofs.Solution.Point

/-!
# The rows of a report

What a report has to say is a relation here. A solution either has its status explained or is listed, and a
listing goes through the declarations of the model: a declaration has a row if the solution has an entry under
its identifier, and the number in the row is that of the first such entry (`Rows`). Nothing relates the
solution to the model, so that the relation covers solutions of other models. The report has the lines that
the relation gives and no others, and at a point of the model itself no row is left out
(`report_lists_exactly`).
-/

namespace LinearProgram.Report

open Decimal (fixed plain)
open Text (alignLeft alignRight)

/-! ## What a report has to say -/

section Rows

variable {α K : Type}

/-- The number of the first entry under an identifier. -/
def FirstUnder (entries : List (Entry K)) (id : String) (x : K) : Prop :=
  ∃ before after, entries = before ++ ⟨id, x⟩ :: after ∧ ∀ e ∈ before, e.id ≠ id

/-- The rows of declarations, in their order: one for a declaration under whose identifier there is an entry,
with the number of the first of these entries, and none for another. -/
inductive Rows (entries : List (Entry K)) (id : α → String) (row : α → K → String) :
    List α → List String → Prop
  | done : Rows entries id row [] []
  | listed {a : α} {x : K} {as : List α} {rows : List String} (hx : FirstUnder entries (id a) x)
      (rest : Rows entries id row as rows) : Rows entries id row (a :: as) (row a x :: rows)
  | passed {a : α} {as : List α} {rows : List String} (hx : id a ∉ entries.map Entry.id)
      (rest : Rows entries id row as rows) : Rows entries id row (a :: as) rows

end Rows

/-- A variable and its value. -/
def variableRow (v : Variable) (x : Float) : String :=
  "  " ++ alignLeft 20 v.id ++ " " ++ alignRight 12 (fixed 4 x)

/-- A constraint and its left-hand side, with the relation and the bound that the model gives it. -/
def constraintRow (c : Constraint Float) (x : Float) : String :=
  "  " ++ alignLeft 20 c.id ++ " " ++ alignRight 12 (fixed 4 x) ++
    "  (" ++ c.relation.symbol ++ " " ++ plain c.bound ++ ")"

/-- The line of an objective value. -/
def objectiveRow (m : Model Float) (x : Float) : String :=
  "Objective (" ++ m.objective.sense.text ++ "): " ++ fixed 4 x

/-- A status that stands alone, and its explanation. -/
inductive Explained (s : Solution Float) : String → Prop
  | infeasible (h : s.status = .infeasible) :
      Explained s "No solution exists that satisfies all constraints."
  | unbounded (h : s.status = .unbounded) :
      Explained s "The problem has no finite optimal solution."
  | error (h : s.status = .error) :
      Explained s ("Solver error: " ++ s.message?.getD "unknown error")
  | late (h : s.status = .timeLimitReached) (hvalues : s.hasValues = false) :
      Explained s "No feasible solution was found within the time limit."

/-- A status with a listing, and the remarks in front of it. -/
inductive Remarked (s : Solution Float) : List String → Prop
  | optimal (h : s.status = .optimal) : Remarked s []
  | incumbent (h : s.status = .timeLimitReached) (hvalues : s.hasValues = true) :
      Remarked s ["Best solution found so far (not proven optimal)."]

/-- The lines of a report: the status with its explanation, or the status and the listing. -/
inductive Reports (m : Model Float) (s : Solution Float) : List String → Prop
  | explanation {reason : String} (h : Explained s reason) :
      Reports m s ["Status: " ++ s.status.text, reason]
  | listing {remarks vars constraints : List String} (h : Remarked s remarks)
      (hvars : Rows s.values Variable.id variableRow m.vars vars)
      (hconstraints : Rows s.activities Constraint.id constraintRow m.constraints constraints) :
      Reports m s (["Status: " ++ s.status.text] ++ remarks ++ (s.objective?.map (objectiveRow m)).toList ++
        ["", "Decision variables:"] ++ vars ++ ["", "Constraints:"] ++ constraints)

/-! ## Rows -/

section Rows

variable {α K : Type} {entries : List (Entry K)}

theorem find?_eq_some_iff {id : String} {x : K} :
    (entries.find? fun e => e.id == id).map Entry.value = some x ↔ FirstUnder entries id x := by
  rw [Option.map_eq_some_iff]
  constructor
  · rintro ⟨⟨id', x'⟩, hfind, rfl⟩
    obtain ⟨hid, before, after, hsplit, hbefore⟩ := List.find?_eq_some_iff_append.mp hfind
    obtain rfl : id' = id := by simpa using hid
    exact ⟨before, after, hsplit, fun e he => by simpa using hbefore e he⟩
  · rintro ⟨before, after, hsplit, hbefore⟩
    refine ⟨⟨id, x⟩, List.find?_eq_some_iff_append.mpr ⟨by simp, before, after, hsplit, ?_⟩, rfl⟩
    exact fun e he => by simpa using hbefore e he

theorem find?_eq_none_iff {id : String} :
    (entries.find? fun e => e.id == id).map Entry.value = none ↔ id ∉ entries.map Entry.id := by
  rw [Option.map_eq_none_iff, List.find?_eq_none, List.mem_map, not_exists]
  simp only [beq_iff_eq, not_and]

/-- The rows are those of the declarations for which an entry is found. -/
theorem rows_iff {id : α → String} {row : α → K → String} {as : List α} {rows : List String} :
    Rows entries id row as rows ↔
      as.filterMap (fun a => ((entries.find? fun e => e.id == id a).map Entry.value).map (row a)) =
        rows := by
  constructor
  · intro h
    induction h with
    | done => rfl
    | listed hx _ ih =>
      simp only [List.filterMap_cons, find?_eq_some_iff.mpr hx, Option.map_some, ih]
    | passed hx _ ih =>
      simp only [List.filterMap_cons, find?_eq_none_iff.mpr hx, Option.map_none, ih]
  · rintro rfl
    induction as with
    | nil => exact .done
    | cons a as ih =>
      cases hx : (entries.find? fun e => e.id == id a).map Entry.value with
      | some x =>
        simp only [List.filterMap_cons, hx, Option.map_some]
        exact .listed (find?_eq_some_iff.mp hx) ih
      | none =>
        simp only [List.filterMap_cons, hx, Option.map_none]
        exact .passed (find?_eq_none_iff.mp hx) ih

/-- Where an entry is found for every declaration, every declaration has a row. -/
theorem Rows.eq_map {id : α → String} {row : α → K → String} {as : List α} {rows : List String}
    (h : Rows entries id row as rows) {value : α → K}
    (hvalue : ∀ a ∈ as, (entries.find? fun e => e.id == id a).map Entry.value = some (value a)) :
    rows = as.map fun a => row a (value a) := by
  rw [← rows_iff.mp h, ← List.filterMap_eq_map]
  exact List.filterMap_congr fun a ha => congrArg (Option.map (row a)) (hvalue a ha)

end Rows

/-! ## Reports -/

variable {m : Model Float} {s : Solution Float}

theorem rows_vars {rows : List String} :
    Rows s.values Variable.id variableRow m.vars rows ↔ m.vars.filterMap (variableRow? s) = rows :=
  rows_iff

theorem rows_constraints {rows : List String} :
    Rows s.activities Constraint.id constraintRow m.constraints rows ↔
      m.constraints.filterMap (constraintRow? s) = rows :=
  rows_iff

/-- A solution that is listed has the lines of its values after the remarks. -/
theorem lines_of_remarked {remarks : List String} (h : Remarked s remarks) :
    lines m s = ["Status: " ++ s.status.text] ++ remarks ++ valueLines m s := by
  cases h with
  | optimal h =>
    rw [lines, body, h]
    rfl
  | incumbent h hvalues =>
    rw [lines, body, h]
    simp only [hvalues, if_true]
    rfl

/-- A solution whose status is explained has no other lines. -/
theorem lines_of_explained {reason : String} (h : Explained s reason) :
    lines m s = ["Status: " ++ s.status.text, reason] := by
  cases h with
  | infeasible h => rw [lines, body, h]
  | unbounded h => rw [lines, body, h]
  | error h => rw [lines, body, h]
  | late h hvalues =>
    rw [lines, body, h]
    simp only [hvalues, Bool.false_eq_true, if_false]

theorem explained_or_remarked (s : Solution Float) :
    (∃ reason, Explained s reason) ∨ ∃ remarks, Remarked s remarks := by
  cases h : s.status with
  | optimal => exact .inr ⟨_, .optimal h⟩
  | infeasible => exact .inl ⟨_, .infeasible h⟩
  | unbounded => exact .inl ⟨_, .unbounded h⟩
  | timeLimitReached =>
    cases hvalues : s.hasValues with
    | true => exact .inr ⟨_, .incumbent h hvalues⟩
    | false => exact .inl ⟨_, .late h hvalues⟩
  | error => exact .inl ⟨_, .error h⟩

theorem listing_eq (remarks : List String) :
    ["Status: " ++ s.status.text] ++ remarks ++ valueLines m s =
      ["Status: " ++ s.status.text] ++ remarks ++ (s.objective?.map (objectiveRow m)).toList ++
        ["", "Decision variables:"] ++ m.vars.filterMap (variableRow? s) ++ ["", "Constraints:"] ++
        m.constraints.filterMap (constraintRow? s) := by
  unfold valueLines
  simp only [List.append_assoc]
  rfl

theorem reports_iff {ls : List String} : Reports m s ls ↔ lines m s = ls := by
  constructor
  · rintro (h | ⟨h, hvars, hconstraints⟩)
    · exact lines_of_explained h
    · rw [lines_of_remarked h, listing_eq, rows_vars.mp hvars, rows_constraints.mp hconstraints]
  · rintro rfl
    rcases explained_or_remarked s with ⟨reason, h⟩ | ⟨remarks, h⟩
    · rw [lines_of_explained h]
      exact .explanation h
    · rw [lines_of_remarked h, listing_eq]
      exact .listing h (rows_vars.mpr rfl) (rows_constraints.mpr rfl)

/-- A solution at a point of a model that is listed at all has one row for every variable, with its value, and
one for every constraint, with its left-hand side. -/
theorem lines_atPoint (h : m.WellFormed) {status : Status} {point : List Float} {remarks : List String}
    (hremarked : Remarked (.atPoint m status point) remarks) :
    lines m (.atPoint m status point) = ["Status: " ++ status.text] ++ remarks ++
      [objectiveRow m (m.objective.expression.evaluate (m.valueAt point))] ++
      ["", "Decision variables:"] ++ m.vars.map (fun v => variableRow v (m.valueAt point v.id)) ++
      ["", "Constraints:"] ++ m.constraints.map
        (fun c => constraintRow c (c.expression.evaluate (m.valueAt point))) := by
  have hvars : m.vars.filterMap (variableRow? (.atPoint m status point)) =
      m.vars.map fun v => variableRow v (m.valueAt point v.id) :=
    (rows_vars.mpr rfl).eq_map fun _ hv => Solution.value?_atPoint h hv
  have hconstraints : m.constraints.filterMap (constraintRow? (.atPoint m status point)) =
      m.constraints.map fun c => constraintRow c (c.expression.evaluate (m.valueAt point)) :=
    (rows_constraints.mpr rfl).eq_map fun _ hc => Solution.activity?_atPoint h hc
  rw [lines_of_remarked hremarked, listing_eq, hvars, hconstraints]
  rfl

/-- **A report lists exactly the right rows.** Whatever the model and whatever the solution, its text consists
of the lines that the relation gives, and the relation gives no others. A solution at a point of an accepted
model that is listed at all has one row for every variable, with its value, and one for every constraint, with
its left-hand side. -/
theorem report_lists_exactly (m : Model Float) (s : Solution Float) :
    (∃ ls, text m s = String.join (ls.map (· ++ "\n")) ∧ ∀ ls', Reports m s ls' ↔ ls = ls') ∧
      (m.Accepted → ∀ status point remarks, s = .atPoint m status point → Remarked s remarks →
        Reports m s (["Status: " ++ s.status.text] ++ remarks ++
          [objectiveRow m (m.objective.expression.evaluate (m.valueAt point))] ++
          ["", "Decision variables:"] ++ m.vars.map (fun v => variableRow v (m.valueAt point v.id)) ++
          ["", "Constraints:"] ++ m.constraints.map
            (fun c => constraintRow c (c.expression.evaluate (m.valueAt point))))) := by
  refine ⟨⟨lines m s, rfl, fun _ => reports_iff⟩, ?_⟩
  rintro haccepted status point remarks rfl hremarked
  exact reports_iff.mpr (lines_atPoint haccepted.wellFormed hremarked)

/-- Maximize `x` where `x + 2y ≤ 4`. -/
def capped : Model Float where
  vars := [⟨"x", .nonNegativeReals⟩, ⟨"y", .nonNegativeReals⟩]
  constraints := [⟨"cap", ⟨[⟨"x", 1⟩, ⟨"y", 2⟩]⟩, .le, 4⟩]
  objective := ⟨⟨[⟨"x", 1⟩]⟩, .maximize⟩

theorem accepted_capped : capped.Accepted :=
  ⟨[.declare "x" .nonNegativeReals, .declare "y" .nonNegativeReals,
    .constrain "cap" [("x", 1), ("y", 2)] .le 4, .pursue [("x", 1)] .maximize], rfl⟩

/-- The report on a search that was stopped at `x = 3`. -/
theorem report_lists_exactly_capped :
    let stopped := Solution.atPoint capped .timeLimitReached [3]
    capped.Accepted ∧ Remarked stopped ["Best solution found so far (not proven optimal)."] ∧
      Reports capped stopped
        ["Status: TIME LIMIT REACHED", "Best solution found so far (not proven optimal).",
          "Objective (maximize): 3.0000", "", "Decision variables:",
          "  x                          3.0000", "  y                          0.0000", "", "Constraints:",
          "  cap                        3.0000  (<= 4)"] := by
  intro stopped
  have hremarked : Remarked stopped ["Best solution found so far (not proven optimal)."] := .incumbent rfl rfl
  have hreports := (report_lists_exactly capped stopped).2 accepted_capped .timeLimitReached [3] _ rfl hremarked
  refine ⟨accepted_capped, hremarked, ?_⟩
  convert hreports using 1
  decide +kernel

end LinearProgram.Report
