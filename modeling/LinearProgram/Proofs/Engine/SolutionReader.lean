import Mathlib
import LinearProgram.Engine.SolutionFile
import LinearProgram.Proofs.Engine.ModelReader
import LinearProgram.Proofs.Text.Trimming

/-!
# Reading a solution file

What the reader makes of a solution file, one kind of line at a time. A line after the status line gives the
engine's objective value, says that there is no solution, gives the value of a name, or is damaged. Damage
counts only before a line that says that there is no solution (`readValues_spec`).
-/

namespace LinearProgram

/-- A text starts with another one when that is a prefix of it. -/
theorem Text.startsWith_iff {front cs : List Char} : startsWith front cs = true ↔ front <+: cs := by
  rw [startsWith, Option.isSome_iff_exists]
  exact exists_congr fun rest => after?_eq_some_iff.trans eq_comm

namespace SolutionFile

open Text

/-! ## Names -/

/-- The name that the model file gives a variable is found at its position. -/
theorem columnOf?_columnName {n j : ℕ} (hj : j < n) : columnOf? n (ModelFile.columnName j) = some j := by
  rw [columnOf?, List.find?_range_eq_some]
  refine ⟨by simp, by simpa using hj, fun i hi => ?_⟩
  have hne : ModelFile.columnName i ≠ ModelFile.columnName j :=
    ModelFile.columnName_injective.ne hi.ne
  simpa using hne

theorem assign_columnName {point : List Float} {j : ℕ} (hj : j < point.length) (x : Float) :
    assign (ModelFile.columnName j) x point = point.set j x := by
  rw [assign, columnOf?_columnName hj]

/-! ## Lines -/

/-- A line that neither gives the objective value nor says that there is no solution, and whose second word
is missing or not a number. -/
structure Damaged (line : List Char) : Prop where
  not_objective : ¬ objectiveMark <+: line
  not_empty : ¬ emptyMark <+: line
  unreadable : ∀ name field more, words line = name :: field :: more →
    Decimal.read? (String.ofList field) = none

section Line

variable {point : List Float} {line : List Char} {rest : List (List Char)}

theorem readValues_objective (h : objectiveMark <+: line) :
    readValues point (line :: rest) = readValues point rest := by
  rw [readValues, if_pos (startsWith_iff.mpr h)]

theorem head?_of_objectiveMark (h : objectiveMark <+: line) : line.head? = some 'o' := by
  obtain ⟨rest, rfl⟩ := h
  rfl

theorem head?_of_emptyMark (h : emptyMark <+: line) : line.head? = some 'n' := by
  obtain ⟨rest, rfl⟩ := h
  rfl

theorem not_objectiveMark_of_emptyMark (h : emptyMark <+: line) : ¬ objectiveMark <+: line := by
  intro hobjective
  have hletters := (head?_of_emptyMark h).symm.trans (head?_of_objectiveMark hobjective)
  exact absurd hletters (by decide)

theorem readValues_empty (h : emptyMark <+: line) : readValues point (line :: rest) = .ok none := by
  have hobjective := not_objectiveMark_of_emptyMark h
  rw [readValues, if_neg (by rwa [startsWith_iff]), if_pos (startsWith_iff.mpr h)]

theorem readValues_value {name field : List Char} {more : List (List Char)} {x : Float}
    (hobjective : ¬ objectiveMark <+: line) (hempty : ¬ emptyMark <+: line)
    (hwords : words line = name :: field :: more)
    (hfield : Decimal.read? (String.ofList field) = some x) :
    readValues point (line :: rest) = readValues (assign (String.ofList name) x point) rest := by
  rw [readValues, if_neg (by rwa [startsWith_iff]), if_neg (by rwa [startsWith_iff]), hwords]
  simp only [hfield]

theorem readValues_damaged (h : Damaged line) : ∃ e, readValues point (line :: rest) = .error e := by
  rw [readValues, if_neg (by rw [startsWith_iff]; exact h.not_objective),
    if_neg (by rw [startsWith_iff]; exact h.not_empty)]
  split
  · next name field more hwords =>
    rw [h.unreadable name field more hwords]
    exact ⟨_, rfl⟩
  · exact ⟨_, rfl⟩

/-- Every other line is read, and reading goes on after it. -/
theorem readValues_cons (hempty : ¬ emptyMark <+: line) (h : ¬ Damaged line) :
    ∃ point', readValues point (line :: rest) = readValues point' rest := by
  by_cases hobjective : objectiveMark <+: line
  · exact ⟨point, readValues_objective hobjective⟩
  by_contra hstops
  refine h ⟨hobjective, hempty, fun name field more hwords => ?_⟩
  by_contra hread
  obtain ⟨x, hx⟩ := Option.ne_none_iff_exists'.mp hread
  exact hstops ⟨_, readValues_value hobjective hempty hwords hx⟩

end Line

/-! ## All the lines -/

/-- The lines before the first one that says that there is no solution. -/
def counting (lines : List (List Char)) : List (List Char) :=
  lines.takeWhile fun line => !startsWith emptyMark line

theorem mem_counting_cons {line l : List Char} {rest : List (List Char)} (h : ¬ emptyMark <+: l) :
    line ∈ counting (l :: rest) ↔ line = l ∨ line ∈ counting rest := by
  have hl : startsWith emptyMark l = false := by rwa [← Bool.not_eq_true, startsWith_iff]
  simp [counting, hl]

theorem counting_cons_of_empty {l : List Char} {rest : List (List Char)} (h : emptyMark <+: l) :
    counting (l :: rest) = [] := by
  simp [counting, startsWith_iff.mpr h]

/-- The lines are refused when one that counts is damaged. Otherwise they give a point, unless one says that
there is no solution. -/
theorem readValues_spec (point : List Float) (lines : List (List Char)) :
    match readValues point lines with
    | .error _ => ∃ line ∈ counting lines, Damaged line
    | .ok point? => (∀ line ∈ counting lines, ¬ Damaged line) ∧
        (point? = none ↔ ∃ line ∈ lines, emptyMark <+: line) := by
  induction lines generalizing point with
  | nil => simp [readValues, counting]
  | cons line lines ih =>
    by_cases hempty : emptyMark <+: line
    · rw [readValues_empty hempty]
      simp [counting_cons_of_empty hempty, hempty]
    by_cases hdamaged : Damaged line
    · obtain ⟨e, he⟩ : ∃ e, readValues point (line :: lines) = .error e := readValues_damaged hdamaged
      rw [he]
      exact ⟨line, (mem_counting_cons hempty).mpr (.inl rfl), hdamaged⟩
    · obtain ⟨point', hpoint'⟩ : ∃ point', readValues point (line :: lines) = readValues point' lines :=
        readValues_cons hempty hdamaged
      rw [hpoint']
      have hlines := ih point'
      -- neither damage nor an end is added by the line
      split at hlines
      · obtain ⟨l, hl, hdamage⟩ := hlines
        exact ⟨l, (mem_counting_cons hempty).mpr (.inr hl), hdamage⟩
      · refine ⟨fun l hl => ?_, by simpa [hempty] using hlines.2⟩
        rcases (mem_counting_cons hempty).mp hl with rfl | hl
        · exact hdamaged
        · exact hlines.1 l hl

end SolutionFile

end LinearProgram
