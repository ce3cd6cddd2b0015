import Mathlib
import LinearProgram.Report.Document
import LinearProgram.Proofs.Json.Written
import LinearProgram.Proofs.Model.Construction

/-!
# Reports for machines lose nothing

Each kind of thing in a report has a reader that gives back what was written of it, whatever its identifiers
are. Where numbers read back, the text of a report is a JSON document of the model and the solution, so that
both are read again from it, and no other model or solution has the same text (`document_loses_nothing`). What
a draft keeps beside its lists is not written; it follows from the variables.
-/

namespace LinearProgram

/-! ## Reading values -/

namespace Json

variable {α : Type}

/-- The number that a value is. -/
def getNumber? : Json → Option Float
  | .number x => some x
  | _ => none

/-- The string that a value is. -/
def getString? : Json → Option String
  | .string s => some s
  | _ => none

/-- The items of a list, each as `read` reads it. -/
def getList? (read : Json → Option α) : Json → Option (List α)
  | .list items => items.mapM read
  | _ => none

/-- The one among `all` whose key a value is. -/
def getWord? (key : α → String) (all : List α) (value : Json) : Option α := do
  let word ← value.getString?
  all.find? fun a => key a == word

/-- The value of the first member under a key. -/
def member? (key : String) : Json → Option Json
  | .object members => members.lookup key
  | _ => none

/-- The member under a key, as `read` reads it. -/
def field? (key : String) (read : Json → Option α) (value : Json) : Option α :=
  (value.member? key).bind read

/-- The member under a key as `read` reads it, if there is one. -/
def optionalField? (key : String) (read : Json → Option α) (value : Json) : Option (Option α) :=
  match value.member? key with
  | none => some none
  | some found => (read found).map some

/-- A list is read where its items are. -/
theorem getList?_map {read : Json → Option α} {write : α → Json} (h : ∀ a, read (write a) = some a)
    (as : List α) : getList? read (.list (as.map write)) = some as := by
  induction as with
  | nil => rfl
  | cons a as ih =>
    rw [getList?] at ih
    rw [List.map_cons, getList?, List.mapM_cons, h, ih]
    rfl

/-- Where keys differ, each word is read as what it is the key of. -/
theorem getWord?_key {key : α → String} (hkey : Function.Injective key) {all : List α}
    (hall : ∀ a, a ∈ all) (a : α) : getWord? key all (.string (key a)) = some a := by
  have hfound : all.find? (fun b => key b == key a) = some a := by
    cases hfind : all.find? fun b => key b == key a with
    | none => exact absurd (List.find?_eq_none.mp hfind a (hall a)) (by simp)
    | some b =>
      have hb : b = a := hkey (by simpa using List.find?_some hfind)
      rw [hb]
  exact hfound

@[simp]
theorem member?_nil (key : String) : member? key (.object []) = none :=
  rfl

@[simp]
theorem member?_cons (key name : String) (value : Json) (members : List (String × Json)) :
    member? key (.object ((name, value) :: members)) =
      if key = name then some value else member? key (.object members) := by
  by_cases h : key = name
  · simp [member?, h]
  · simp [member?, List.lookup_cons, h, beq_false_of_ne h]

end Json

open Json (getNumber? getString? getList? getWord?)

/-! ## Reading models -/

/-- The domain that a word stands for. -/
def Domain.ofJson? : Json → Option Domain :=
  getWord? Domain.key [.nonNegativeReals]

/-- The relation that a word stands for. -/
def Relation.ofJson? : Json → Option Relation :=
  getWord? Relation.key [.le, .ge, .eq]

/-- The sense that a word stands for. -/
def Sense.ofJson? : Json → Option Sense :=
  getWord? Sense.key [.maximize, .minimize]

/-- The variable that an object describes. -/
def Variable.ofJson? (value : Json) : Option Variable := do
  return ⟨← value.field? "id" getString?, ← value.field? "domain" Domain.ofJson?⟩

/-- The term that an object describes. -/
def Term.ofJson? (value : Json) : Option (Term Float) := do
  return ⟨← value.field? "variable" getString?, ← value.field? "coefficient" getNumber?⟩

/-- The expression with the terms that a list describes. -/
def LinearExpr.ofJson? (value : Json) : Option (LinearExpr Float) := do
  return ⟨← value.getList? Term.ofJson?⟩

/-- The constraint that an object describes. -/
def Constraint.ofJson? (value : Json) : Option (Constraint Float) := do
  return ⟨← value.field? "id" getString?, ← value.field? "expression" LinearExpr.ofJson?,
    ← value.field? "relation" Relation.ofJson?, ← value.field? "bound" getNumber?⟩

/-- The objective that an object describes. -/
def Objective.ofJson? (value : Json) : Option (Objective Float) := do
  return ⟨← value.field? "expression" LinearExpr.ofJson?, ← value.field? "sense" Sense.ofJson?⟩

/-- The model that an object describes. -/
def Model.ofJson? (value : Json) : Option (Model Float) := do
  return ⟨← value.field? "variables" (getList? Variable.ofJson?),
    ← value.field? "constraints" (getList? Constraint.ofJson?),
    ← value.field? "objective" Objective.ofJson?⟩

theorem Domain.ofJson?_key (d : Domain) : Domain.ofJson? (.string d.key) = some d :=
  Json.getWord?_key (fun a b => by cases a; cases b; simp) (fun a => by cases a; simp) d

theorem Relation.ofJson?_key (r : Relation) : Relation.ofJson? (.string r.key) = some r :=
  Json.getWord?_key (fun a b => by cases a <;> cases b <;> simp [key]) (fun a => by cases a <;> simp) r

theorem Sense.ofJson?_key (sense : Sense) : Sense.ofJson? (.string sense.key) = some sense :=
  Json.getWord?_key (fun a b => by cases a <;> cases b <;> simp [key]) (fun a => by cases a <;> simp) sense

theorem Variable.ofJson?_toJson (v : Variable) : Variable.ofJson? v.toJson = some v := by
  simp [ofJson?, toJson, Json.field?, getString?, Domain.ofJson?_key]

theorem Term.ofJson?_toJson (t : Term Float) : Term.ofJson? t.toJson = some t := by
  simp [ofJson?, toJson, Json.field?, getString?, getNumber?]

theorem LinearExpr.ofJson?_toJson (e : LinearExpr Float) : LinearExpr.ofJson? e.toJson = some e := by
  simp [ofJson?, toJson, Json.getList?_map Term.ofJson?_toJson]

theorem Constraint.ofJson?_toJson (c : Constraint Float) : Constraint.ofJson? c.toJson = some c := by
  simp [ofJson?, toJson, Json.field?, getString?, getNumber?, LinearExpr.ofJson?_toJson, Relation.ofJson?_key]

theorem Objective.ofJson?_toJson (o : Objective Float) : Objective.ofJson? o.toJson = some o := by
  simp [ofJson?, toJson, Json.field?, LinearExpr.ofJson?_toJson, Sense.ofJson?_key]

/-- What is written of a model is read as the model. -/
theorem Model.ofJson?_toJson (m : Model Float) : Model.ofJson? m.toJson = some m := by
  simp [ofJson?, toJson, Json.field?, Json.getList?_map Variable.ofJson?_toJson,
    Json.getList?_map Constraint.ofJson?_toJson, Objective.ofJson?_toJson]

/-! ## Reading solutions -/

/-- The status that a word stands for. -/
def Status.ofJson? : Json → Option Status :=
  getWord? Status.key [.optimal, .infeasible, .unbounded, .timeLimitReached, .error]

/-- The number and the identifier that an object describes. -/
def Entry.ofJson? (value : Json) : Option (Entry Float) := do
  return ⟨← value.field? "id" getString?, ← value.field? "value" getNumber?⟩

/-- The solution that an object describes. -/
def Solution.ofJson? (value : Json) : Option (Solution Float) := do
  return ⟨← value.field? "status" Status.ofJson?, ← value.optionalField? "objective_value" getNumber?,
    ← value.field? "variables" (getList? Entry.ofJson?),
    ← value.field? "constraints" (getList? Entry.ofJson?),
    ← value.optionalField? "message" getString?⟩

theorem Status.ofJson?_key (status : Status) : Status.ofJson? (.string status.key) = some status :=
  Json.getWord?_key (fun a b => by cases a <;> cases b <;> simp [key]) (fun a => by cases a <;> simp) status

theorem Entry.ofJson?_toJson (e : Entry Float) : Entry.ofJson? e.toJson = some e := by
  simp [ofJson?, toJson, Json.field?, getString?, getNumber?]

/-- What is written of a solution is read as the solution, with or without the members that may be left out. -/
theorem Solution.ofJson?_toJson (s : Solution Float) : Solution.ofJson? s.toJson = some s := by
  obtain ⟨status, objective?, values, activities, message?⟩ := s
  cases objective? <;> cases message? <;>
    simp [ofJson?, toJson, Json.field?, Json.optionalField?, getString?, getNumber?, Status.ofJson?_key,
      Json.getList?_map Entry.ofJson?_toJson]

/-! ## Numbers in a report -/

/-- The numbers of a solution. -/
def Solution.numbers (s : Solution Float) : List Float :=
  s.objective?.toList ++ s.values.map Entry.value ++ s.activities.map Entry.value

theorem Json.itemNumbers_map {α : Type} (write : α → Json) (as : List α) :
    itemNumbers (as.map write) = as.flatMap fun a => (write a).numbers := by
  induction as with
  | nil => rfl
  | cons a as ih => rw [List.map_cons, itemNumbers, ih, List.flatMap_cons]

theorem Json.itemNumbers_map_of_singleton {α : Type} {write : α → Json} {number : α → Float}
    (h : ∀ a, (write a).numbers = [number a]) (as : List α) : itemNumbers (as.map write) = as.map number := by
  simp only [itemNumbers_map, h, ← List.map_eq_flatMap]

theorem Variable.numbers_toJson (v : Variable) : v.toJson.numbers = [] := by
  simp [toJson, Json.numbers, Json.memberNumbers]

theorem Entry.numbers_toJson (e : Entry Float) : e.toJson.numbers = [e.value] := by
  simp [toJson, Json.numbers, Json.memberNumbers]

theorem LinearExpr.numbers_toJson (e : LinearExpr Float) :
    e.toJson.numbers = e.terms.map Term.coefficient := by
  have hterm (t : Term Float) : t.toJson.numbers = [t.coefficient] := by
    simp [Term.toJson, Json.numbers, Json.memberNumbers]
  rw [toJson, Json.numbers, Json.itemNumbers_map_of_singleton hterm]

theorem Constraint.numbers_toJson (c : Constraint Float) :
    c.toJson.numbers = c.expression.terms.map Term.coefficient ++ [c.bound] := by
  simp [toJson, Json.numbers, Json.memberNumbers, LinearExpr.numbers_toJson]

theorem Model.numbers_toJson (m : Model Float) :
    m.toJson.numbers = (m.constraints.flatMap fun c => c.expression.terms.map Term.coefficient ++ [c.bound])
      ++ m.objective.expression.terms.map Term.coefficient := by
  simp [toJson, Objective.toJson, Json.numbers, Json.memberNumbers, Json.itemNumbers_map,
    Variable.numbers_toJson, Constraint.numbers_toJson, LinearExpr.numbers_toJson]

theorem Solution.numbers_toJson (s : Solution Float) : s.toJson.numbers = s.numbers := by
  obtain ⟨status, objective?, values, activities, message?⟩ := s
  cases objective? <;> cases message? <;>
    simp [toJson, numbers, Json.numbers, Json.memberNumbers,
      Json.itemNumbers_map_of_singleton Entry.numbers_toJson]

/-- All numbers in what is written of a model that calls build are finite. -/
theorem Model.WellFormed.finite {m : Model Float} (h : m.WellFormed) {x : Float}
    (hx : x ∈ m.toJson.numbers) : x.isFinite = true := by
  have hcoefficients {e : LinearExpr Float} (he : e.isFinite = true) :
      ∀ x ∈ e.terms.map Term.coefficient, x.isFinite = true := by
    intro x hx
    obtain ⟨t, ht, rfl⟩ := List.mem_map.mp hx
    exact List.all_eq_true.mp he t ht
  rw [Model.numbers_toJson] at hx
  rcases List.mem_append.mp hx with hx | hx
  · obtain ⟨c, hc, hx⟩ := List.mem_flatMap.mp hx
    obtain ⟨hover, hbound⟩ := h.constraints c hc
    rcases List.mem_append.mp hx with hx | hx
    · exact hcoefficients hover.finite x hx
    · rw [List.mem_singleton.mp hx]
      exact hbound
  · exact hcoefficients h.objective.finite x hx

/-! ## Reading reports -/

/-- Where a draft finishes into a model, its index finds what the variables of the model say. -/
theorem Draft.indexOf?_after {m : Model Float} {calls : List (Draft.Call Float)}
    (h : (after calls).finish = .ok m) (id : String) : (after calls).indexOf? id = m.indexOf? id := by
  obtain ⟨objective, -, rfl⟩ := finish_eq_ok.mp h
  exact (wellFormed_after calls).index id

namespace Report

/-- The model and the solution that an object describes. -/
def ofJson? (value : Json) : Option (Model Float × Solution Float) := do
  return (← value.field? "model" Model.ofJson?, ← value.field? "solution" Solution.ofJson?)

/-- The model and the solution that a text describes. -/
def decode? (text : String) : Option (Model Float × Solution Float) := do
  ofJson? (← Json.read? text)

/-- A model that calls build and a solution in finite numbers, where the finite numbers in the document read
back. -/
structure Writable (m : Model Float) (s : Solution Float) : Prop where
  accepted : m.Accepted
  finite : ∀ x ∈ s.numbers, x.isFinite = true
  readsBack : ∀ x ∈ (document m s).numbers, x.isFinite = true → Json.ReadsBack x

variable {m : Model Float} {s : Solution Float}

theorem ofJson?_document (m : Model Float) (s : Solution Float) : ofJson? (document m s) = some (m, s) := by
  simp [ofJson?, document, Json.field?, Model.ofJson?_toJson, Solution.ofJson?_toJson]

/-- The text up to its last line feed is a text of the document. -/
theorem Writable.denotes (h : Writable m s) :
    Json.Denotes ((document m s).indented 0).toList (document m s) := by
  have hnumbers : (document m s).numbers = m.toJson.numbers ++ s.numbers := by
    simp [document, Json.numbers, Json.memberNumbers, Solution.numbers_toJson]
  refine Json.denotes_indented 0 (document m s) fun x hx => h.readsBack x hx ?_
  rw [hnumbers] at hx
  rcases List.mem_append.mp hx with hx | hx
  · exact h.accepted.wellFormed.finite hx
  · exact h.finite x hx

theorem Writable.decode?_documentText (h : Writable m s) : decode? (documentText m s) = some (m, s) := by
  have helement : Json.Element (documentText m s).toList (document m s) := by
    simpa [documentText] using
      Json.Element.mk Json.blanks_nil h.denotes (Json.blanks_singleton (c := '\n') (by decide))
  simp [decode?, Json.read?_of_element helement, ofJson?_document]

/-- **A report for machines loses nothing.** Its text is a document of the model and the solution and a line
feed, from which both are read again. A model and a solution with the same text are the same, and all drafts
that finish into the model have the index that its variables give. -/
theorem document_loses_nothing (h : Writable m s) :
    (∃ text, documentText m s = text ++ "\n" ∧ Json.Denotes text.toList (document m s)) ∧
      decode? (documentText m s) = some (m, s) ∧
      (∀ m' s', Writable m' s' → documentText m' s' = documentText m s → m' = m ∧ s' = s) ∧
      ∀ calls : List (Draft.Call Float), (Draft.after calls).finish = .ok m →
        ∀ id, (Draft.after calls).indexOf? id = m.indexOf? id := by
  refine ⟨⟨_, rfl, h.denotes⟩, h.decode?_documentText, fun m' s' h' htext => ?_,
    fun calls hcalls => Draft.indexOf?_after hcalls⟩
  have hread := h'.decode?_documentText
  rw [htext, h.decode?_documentText] at hread
  obtain ⟨rfl, rfl⟩ := Prod.mk.inj (Option.some.inj hread)
  exact ⟨rfl, rfl⟩

/-- Identifiers with quotes, a backslash, controls and letters beyond ASCII. -/
def quoted : Model Float where
  vars := [⟨"the \"first\"", .nonNegativeReals⟩, ⟨"größe\n", .nonNegativeReals⟩]
  constraints := [⟨"c\\\x07", ⟨[⟨"größe\n", 0.1⟩, ⟨"the \"first\"", -3⟩]⟩, .ge, -0.0⟩, ⟨"", ⟨[]⟩, .eq, 1e-7⟩]
  objective := ⟨⟨[⟨"the \"first\"", 2.5⟩]⟩, .minimize⟩

/-- An answer to it with numbers and a message. -/
def answered : Solution Float where
  status := .timeLimitReached
  objective? := some 1e21
  values := [⟨"the \"first\"", 4e20⟩, ⟨"größe\n", -0.0⟩]
  activities := [⟨"", -0.0⟩]
  message? := some "stopped \t“early”"

theorem writable_quoted_answered : Writable quoted answered where
  accepted :=
    ⟨[.declare "the \"first\"" .nonNegativeReals, .declare "größe\n" .nonNegativeReals,
      .constrain "c\\\x07" [("größe\n", 0.1), ("the \"first\"", -3)] .ge (-0.0), .constrain "" [] .eq 1e-7,
      .pursue [("the \"first\"", 2.5)] .minimize], rfl⟩
  finite := by decide +kernel
  readsBack := by decide +kernel

theorem document_loses_nothing_quoted :
    Writable quoted answered ∧
      (∃ text, documentText quoted answered = text ++ "\n" ∧
        Json.Denotes text.toList (document quoted answered)) ∧
      decode? (documentText quoted answered) = some (quoted, answered) ∧
      (∀ m' s', Writable m' s' → documentText m' s' = documentText quoted answered →
        m' = quoted ∧ s' = answered) ∧
      ∀ calls : List (Draft.Call Float), (Draft.after calls).finish = .ok quoted →
        ∀ id, (Draft.after calls).indexOf? id = quoted.indexOf? id :=
  ⟨writable_quoted_answered, document_loses_nothing writable_quoted_answered⟩

end Report

end LinearProgram
