import Mathlib
import LinearProgram.Proofs.Engine.ModelFile

/-!
# The names in an LP file

Lines of an LP file name variables by words that begin with an `x`. Where the model has a variable, the file
declares what it names: the objective and the constraints name variables of the section of bounds only, which
has one line for each, and the constraints are labelled one after the other. An expression without terms is
written with the name of the first variable, whether there is one or not, so that the file of a model without
variables names a variable that it neither counts nor bounds (`declares_iff`).
-/

namespace LinearProgram.ModelFile

/-! ## Names -/

/-- Whether a word names a variable. -/
def isName (word : String) : Bool :=
  word.toList.head? == some 'x'

/-- The variables that words name, from left to right. -/
def named (words : List String) : List String :=
  words.filter isName

/-- The variables that the statements of a file name. -/
def Sections.named (s : Sections) : List String :=
  (s.objective :: s.rows ++ s.bounds).flatMap ModelFile.named

/-- A file in which `n` variables and `k` constraints are declared, and nothing else is named. -/
structure Declares (s : Sections) (n k : ℕ) : Prop where
  /-- Objective and constraints name variables among the first `n`. -/
  mentioned : ∀ words ∈ s.objective :: s.rows, ∀ w ∈ ModelFile.named words,
    ∃ j < n, w = "x" ++ Decimal.natText j
  /-- There is one line of bounds for each of the variables, and no other. -/
  bounds : s.bounds.map ModelFile.named = (List.range n).map fun j => ["x" ++ Decimal.natText j]
  /-- The lines of the constraints are labelled in their order. -/
  rows : s.rows.map List.head? = (List.range k).map fun i => some ("c" ++ Decimal.natText i ++ ":")
  /-- There are as many variables in the file as are counted. -/
  counted : s.named.toFinset.card = n

variable {m : Model Float}

@[simp]
theorem isName_columnName (j : ℕ) : isName (columnName j) = true := by
  rw [isName, toList_columnName]
  rfl

theorem isName_of_isFigure {w : String} (h : Decimal.IsFigure w) : isName w = false := by
  cases htext : w.toList with
  | nil => exact absurd htext h.ne_nil
  | cons c cs =>
    have hc : c ≠ 'x' := by
      rintro rfl
      have hfigure := h.mem 'x' (by rw [htext]; exact List.mem_cons_self)
      exact absurd hfigure (by decide)
    simp [isName, htext, hc]

/-- A number is not a name. -/
@[simp]
theorem isName_plain (x : Float) : isName (Decimal.plain x) = false := by
  unfold Decimal.plain
  split
  · unfold Decimal.specialText
    split
    · decide +kernel
    · split <;> decide +kernel
  · next b _ =>
    unfold Decimal.signText
    split
    · simp [isName]
    · rw [String.empty_append]
      exact isName_of_isFigure (Decimal.isFigure_positional _)

@[simp]
theorem isName_relationSign (relation : Relation) : isName (relationSign relation) = false := by
  cases relation <;> decide

@[simp]
theorem isName_rowLabel (i : ℕ) : isName (rowName i ++ ":") = false := by
  simp [isName, rowName]

/-! ## The names in each line -/

theorem named_productWords (p : ℕ × Float) : named (productWords p) = [columnName p.1] := by
  have hsign : isName (if Scalar.lt p.2 0 then "-" else "+") = false := by
    split <;> decide
  simp [named, productWords, hsign]

theorem named_flatMap_productWords (ps : List (ℕ × Float)) :
    named (ps.flatMap productWords) = ps.map fun p => columnName p.1 := by
  induction ps with
  | nil => rfl
  | cons p ps ih =>
    rw [named] at ih
    rw [List.flatMap_cons, named, List.filter_append, ih, ← named, named_productWords]
    rfl

/-- An expression names the variables of its terms, and one without terms the first variable. -/
theorem named_expressionWords (ps : List (ℕ × Float)) :
    named (expressionWords ps) = if ps = [] then ["x0"] else ps.map fun p => columnName p.1 := by
  unfold expressionWords
  split
  · decide
  · exact named_flatMap_productWords ps

theorem named_constraintWords (c : Constraint Float) (i : ℕ) :
    named (constraintWords m c i) = named (expressionWords (placed m c.expression)) := by
  simp [named, constraintWords]

theorem named_nonNegative (j : ℕ) : named (nonNegative j) = [columnName j] := by
  have hnonNegative : nonNegative j = [columnName j, ">=", "0"] := rfl
  have hwords : isName ">=" = false ∧ isName "0" = false := by decide
  simp [named, hnonNegative, hwords]

/-- The line of the objective, and those of the constraints, name what their expressions name. -/
theorem exists_expression {words : List String} (h : words ∈ (sections m).objective :: (sections m).rows) :
    ∃ e : LinearExpr Float, named words = named (expressionWords (placed m e)) := by
  rcases List.mem_cons.mp h with rfl | h
  · exact ⟨m.objective.expression, rfl⟩
  · obtain ⟨c, -, rfl⟩ := List.mem_map.mp h
    exact ⟨c.1.expression, named_constraintWords c.1 c.2⟩

/-! ## The names in the file -/

theorem named_bounds (m : Model Float) :
    (sections m).bounds.map named = (List.range m.numVariables).map fun j => [columnName j] := by
  simp [sections, Function.comp_def, named_nonNegative]

theorem head?_rows (m : Model Float) :
    (sections m).rows.map List.head? = (List.range m.numConstraints).map fun i => some (rowName i ++ ":") := by
  rw [sections, List.map_map, Model.numConstraints, List.range_eq_range', ← List.zipIdx_map_snd, List.map_map]
  rfl

/-- With a variable in the model, lines name variables of the model only. -/
theorem mentioned_of_ne_nil (hvars : m.vars ≠ []) {words : List String}
    (h : words ∈ (sections m).objective :: (sections m).rows) {w : String} (hw : w ∈ named words) :
    ∃ j < m.numVariables, w = columnName j := by
  obtain ⟨e, he⟩ := exists_expression h
  rw [he, named_expressionWords] at hw
  split at hw
  · exact ⟨0, List.length_pos_iff.mpr hvars, List.mem_singleton.mp hw⟩
  · obtain ⟨p, hp, rfl⟩ := List.mem_map.mp hw
    exact ⟨p.1, (mem_placed hp).1, rfl⟩

/-- Without a variable in the model, every line names the first one. -/
theorem named_of_eq_nil (hvars : m.vars = []) {words : List String}
    (h : words ∈ (sections m).objective :: (sections m).rows) : named words = ["x0"] := by
  obtain ⟨e, he⟩ := exists_expression h
  have hplaced : placed m e = [] := by
    refine List.eq_nil_iff_forall_not_mem.mpr fun p hp => ?_
    have hlt := (mem_placed hp).1
    simp [Model.numVariables, hvars] at hlt
  rw [he, named_expressionWords, if_pos hplaced]

theorem mem_named {s : Sections} {w : String} : w ∈ s.named ↔
    (∃ words ∈ s.objective :: s.rows, w ∈ named words) ∨ ∃ words ∈ s.bounds, w ∈ named words := by
  simp only [Sections.named, List.mem_flatMap, List.mem_append, or_and_right, exists_or]

/-- Where the lines name bounded variables only, there are as many names as lines of bounds. -/
theorem card_named {s : Sections} {n : ℕ}
    (hmentioned : ∀ words ∈ s.objective :: s.rows, ∀ w ∈ named words, ∃ j < n, w = columnName j)
    (hbounds : s.bounds.map named = (List.range n).map fun j => [columnName j]) :
    s.named.toFinset.card = n := by
  have hbounded (w : String) : (∃ words ∈ s.bounds, w ∈ named words) ↔ ∃ j < n, w = columnName j := by
    have hmem : w ∈ (s.bounds.map named).flatten ↔
        w ∈ ((List.range n).map fun j => [columnName j]).flatten := by
      rw [hbounds]
    simpa [List.mem_flatten] using hmem
  have hnamed : s.named.toFinset = (Finset.range n).image columnName := by
    ext w
    rw [List.mem_toFinset, mem_named, hbounded, Finset.mem_image]
    constructor
    · rintro (⟨words, hwords, hw⟩ | ⟨j, hj, rfl⟩)
      · obtain ⟨j, hj, rfl⟩ := hmentioned words hwords w hw
        exact ⟨j, Finset.mem_range.mpr hj, rfl⟩
      · exact ⟨j, Finset.mem_range.mpr hj, rfl⟩
    · rintro ⟨j, hj, rfl⟩
      exact .inr ⟨j, Finset.mem_range.mp hj, rfl⟩
  rw [hnamed, Finset.card_image_of_injective _ columnName_injective, Finset.card_range]

theorem declares_sections_iff (m : Model Float) :
    Declares (sections m) m.numVariables m.numConstraints ↔ m.vars ≠ [] := by
  constructor
  · intro h hvars
    have hfirst : "x0" ∈ named (sections m).objective := by
      rw [named_of_eq_nil hvars List.mem_cons_self]
      exact List.mem_singleton.mpr rfl
    obtain ⟨j, hj, -⟩ := h.mentioned _ List.mem_cons_self _ hfirst
    simp [Model.numVariables, hvars] at hj
  · intro hvars
    have hmentioned : ∀ words ∈ (sections m).objective :: (sections m).rows, ∀ w ∈ named words,
        ∃ j < m.numVariables, w = columnName j := fun _ hwords _ hw => mentioned_of_ne_nil hvars hwords hw
    exact ⟨hmentioned, named_bounds m, head?_rows m, card_named hmentioned (named_bounds m)⟩

/-- **A file declares what it names, where there is a variable to name.** The first line of the file of a model
counts its variables and constraints. Whatever the identifiers are, the file has one line of bounds for each
variable and one label for each constraint in its order, and with a variable in the model it names no others
than these variables and has as many of them as it counts. Without one, the objective and every constraint name
a variable that is not declared. -/
theorem declares_iff (m : Model Float) :
    (Text.lines (text m).toList).head? = some
        ("\\ lpkit model: " ++ Decimal.natText m.numVariables ++ " variables, "
          ++ Decimal.natText m.numConstraints ++ " constraints").toList ∧
      ∃ s, sections? ((Text.lines (text m).toList).filterMap statement?) = some s ∧
        s.bounds.map named = (List.range m.numVariables).map (fun j => ["x" ++ Decimal.natText j]) ∧
        s.rows.map List.head? =
          (List.range m.numConstraints).map (fun i => some ("c" ++ Decimal.natText i ++ ":")) ∧
        (m.vars = [] → ∀ words ∈ s.objective :: s.rows, named words = ["x0"]) ∧
        (Declares s m.numVariables m.numConstraints ↔ m.vars ≠ []) := by
  refine ⟨?_, sections m, ?_, named_bounds m, head?_rows m, fun hvars _ => named_of_eq_nil hvars,
    declares_sections_iff m⟩
  · rw [lines_text]
    rfl
  · rw [filterMap_statement?, sections?_sections]

/-- Nothing is to be made large. -/
def nothing : Model Float where
  vars := []
  constraints := []
  objective := ⟨⟨[]⟩, .maximize⟩

/-- The file of a model of nothing counts no variable, bounds none and names one. -/
theorem not_declares_nothing :
    nothing.Accepted ∧
      text nothing =
        "\\ lpkit model: 0 variables, 0 constraints\nMaximize\n obj: 0 x0\nSubject To\nBounds\nEnd\n" ∧
      sections? ((Text.lines (text nothing).toList).filterMap statement?) =
        some ⟨"Maximize", ["0", "x0"], [], []⟩ ∧
      ¬Declares ⟨"Maximize", ["0", "x0"], [], []⟩ 0 0 := by
  refine ⟨⟨[.pursue [] .maximize], rfl⟩, by decide +kernel, ?_, fun h => ?_⟩
  · rw [filterMap_statement?, sections?_sections]
    rfl
  · exact absurd h.counted (by decide)

end LinearProgram.ModelFile
