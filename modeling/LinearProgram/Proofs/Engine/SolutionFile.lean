import Mathlib
import LinearProgram.Proofs.Double.Zero
import LinearProgram.Proofs.Engine.ModelFile
import LinearProgram.Proofs.Engine.SolutionReader
import LinearProgram.Proofs.Solution.Point

/-!
# Solution files that come back to the variables

An answer of the engine lists values under the names of the model file, in any order, and leaves out
variables at zero. The reader puts every value at the position that its name gives, so that the solution
reports it under the identifier of the variable declared there, whatever the identifiers are
(`solutionOf_reports`). The sign of a zero may be lost on the way, which makes no difference to a number.
-/

namespace LinearProgram

/-- The solution reports the point `v` of the model, give or take the sign of a zero: the value of every
variable under its identifier, and what the model's expressions make of them. -/
structure Solution.Reports (s : Solution Float) (m : Model Float) (v : List Float) : Prop where
  values : ∀ (j : ℕ) (var : Variable) (x : Float), m.vars[j]? = some var → v[j]? = some x →
    ∃ x' : Float, s.value? var.id = some x' ∧ Double.Same x' x
  activities : ∀ c ∈ m.constraints,
    ∃ a : Float, s.activity? c.id = some a ∧ Double.Same a (c.expression.evaluate (m.valueAt v))
  objective : ∃ z : Float, s.objective? = some z ∧
    Double.Same z (m.objective.expression.evaluate (m.valueAt v))

namespace SolutionFile

open Text

variable {v : List Float}

/-! ## Answers -/

/-- A line that says nothing of the variables: it is blank or gives the engine's own objective value. -/
def Idle (line : List Char) : Prop :=
  trim line = [] ∨ objectiveMark <+: trim line

/-- The lines list the values in `v` of the variables at the given positions, under their names in the model
file, with idle lines in between. -/
inductive Lists (v : List Float) : List (List Char) → List ℕ → Prop
  | nil : Lists v [] []
  | idle {line lines listed} (hline : Idle line) (h : Lists v lines listed) :
      Lists v (line :: lines) listed
  | value {line field more lines listed j x y} (hvalue : v[j]? = some x)
      (hwords : words line = (ModelFile.columnName j).toList :: field :: more)
      (hfield : Decimal.read? (String.ofList field) = some y) (hsame : Double.Same y x)
      (h : Lists v lines listed) : Lists v (line :: lines) (j :: listed)

/-- The text is an answer with the given words as its status: after blank lines comes the status line, and
then lines that list the values in `v` but for zeros. -/
def Answers (v : List Float) (status text : String) : Prop :=
  ∃ blanks first rest body listed,
    Text.lines text.toList = blanks ++ first :: body ∧
      (∀ line ∈ blanks, trim line = []) ∧
      trim first = statusMark ++ rest ∧ trim rest = status.toList ∧
      Lists v body listed ∧ ∀ j x, v[j]? = some x → j ∉ listed → (x == 0) = true

/-! ## The point that is read -/

/-- The lines that count are those that are not blank, without the blanks around them. -/
def contentOf (lines : List (List Char)) : List (List Char) :=
  (lines.map trim).filter fun line => !line.isEmpty

theorem contentOf_cons_of_blank {line : List Char} (h : trim line = []) (lines : List (List Char)) :
    contentOf (line :: lines) = contentOf lines := by
  simp [contentOf, h]

theorem contentOf_cons {line : List Char} (h : trim line ≠ []) (lines : List (List Char)) :
    contentOf (line :: lines) = trim line :: contentOf lines := by
  simp [contentOf, h]

theorem contentOf_append_of_blank {blanks : List (List Char)} (h : ∀ line ∈ blanks, trim line = [])
    (lines : List (List Char)) : contentOf (blanks ++ lines) = contentOf lines := by
  induction blanks with
  | nil => rfl
  | cons line blanks ih =>
    obtain ⟨hline, hblanks⟩ := List.forall_mem_cons.mp h
    rw [List.cons_append, contentOf_cons_of_blank hline, ih hblanks]

/-- A line that starts with a name of the model file has none of the marks. -/
theorem unmarked_of_words {line : List Char} {ws : List (List Char)} {j : ℕ}
    (h : words line = (ModelFile.columnName j).toList :: ws) :
    trim line ≠ [] ∧ ¬ objectiveMark <+: trim line ∧ ¬ emptyMark <+: trim line := by
  rw [ModelFile.toList_columnName] at h
  obtain ⟨rest, hrest⟩ := exists_trim_eq_cons h
  rw [hrest]
  refine ⟨List.cons_ne_nil _ _, fun hmark => ?_, fun hmark => ?_⟩
  · have hletter : some 'x' = some 'o' := head?_of_objectiveMark hmark
    exact absurd hletter (by decide)
  · have hletter : some 'x' = some 'n' := head?_of_emptyMark hmark
    exact absurd hletter (by decide)

/-- The values that are listed take their places in the point, and all others stay. -/
theorem readValues_of_lists {lines : List (List Char)} {listed : List ℕ} (h : Lists v lines listed)
    {point : List Float} (hlength : point.length = v.length) :
    ∃ point', readValues point (contentOf lines) = .ok (some point') ∧
      ∀ i, Double.Same (point'.getD i 0) (if i ∈ listed then v.getD i 0 else point.getD i 0) := by
  induction h generalizing point with
  | nil => exact ⟨point, rfl, fun i => .refl _⟩
  | @idle line lines listed hline _ ih =>
    rcases hline with hblank | hobjective
    · rw [contentOf_cons_of_blank hblank]
      exact ih hlength
    · have hhead := head?_of_objectiveMark hobjective
      have hne : trim line ≠ [] := fun hnil => by simp [hnil] at hhead
      rw [contentOf_cons hne, readValues_objective hobjective]
      exact ih hlength
  | @value line field more lines listed j x y hvalue hwords hfield hsame _ ih =>
    have hj : j < point.length := hlength ▸ (List.getElem?_eq_some_iff.mp hvalue).1
    obtain ⟨hne, hobjective, hempty⟩ := unmarked_of_words hwords
    rw [← words_trim] at hwords
    rw [contentOf_cons hne, readValues_value hobjective hempty hwords hfield, String.ofList_toList,
      assign_columnName hj]
    have hlength' : (point.set j y).length = v.length := by rwa [List.length_set]
    obtain ⟨point', hread, hpoint'⟩ := ih hlength'
    refine ⟨point', hread, fun i => (hpoint' i).trans ?_⟩
    by_cases hi : i ∈ listed
    · simp only [hi, List.mem_cons, or_true, if_true, Double.Same.refl]
    by_cases hij : i = j
    · subst hij
      simpa [hi, hj, hvalue, List.getD] using hsame
    · simp only [hi, hij, List.mem_cons, or_false, if_false, List.getD_eq_getElem?_getD,
        List.getElem?_set_ne (Ne.symm hij), Double.Same.refl]

/-- A value that is left out is a zero, and so is what stands in its place. -/
theorem same_zero_of_omitted {i : ℕ} (hzero : ∀ x, v[i]? = some x → (x == 0) = true) :
    Double.Same ((List.replicate v.length 0).getD i 0) (v.getD i 0) := by
  rw [List.getD_eq_getElem?_getD, List.getElem?_getD_replicate_default_eq, List.getD_eq_getElem?_getD]
  cases hv : v[i]? with
  | none => rfl
  | some x => exact .inr ⟨by decide +kernel, hzero x hv⟩

/-- What is read of an answer: its status, and the listed values with zeros for the rest. -/
theorem read_of_answers {status text : String} (h : Answers v status text) :
    ∃ point, read v.length text = .ok ⟨status, some point⟩ ∧
      ∀ i, Double.Same (point.getD i 0) (v.getD i 0) := by
  obtain ⟨blanks, first, rest, body, listed, htext, hblanks, hfirst, hstatus, hbody, hzero⟩ := h
  have hlength : (List.replicate v.length (0 : Float)).length = v.length := List.length_replicate
  obtain ⟨point, hread, hpoint⟩ := readValues_of_lists hbody hlength
  refine ⟨point, ?_, fun i => (hpoint i).trans ?_⟩
  · have hne : trim first ≠ [] :=
      hfirst ▸ List.append_ne_nil_of_left_ne_nil (by decide +kernel) rest
    have hcontent : content text = (statusMark ++ rest) :: contentOf body := by
      rw [show content text = contentOf (lines text.toList) from rfl, htext,
        contentOf_append_of_blank hblanks, contentOf_cons hne, hfirst]
    rw [read, hcontent]
    simp only [after?_eq_some_iff.mpr rfl, hread, hstatus, String.ofList_toList]
  · by_cases hi : i ∈ listed
    · rw [if_pos hi]
    rw [if_neg hi]
    exact same_zero_of_omitted fun x hx => hzero i x hx hi

/-! ## What the solution reports -/

section Reports

variable {m : Model Float}

theorem same_valueAt {point : List Float} (h : ∀ j, Double.Same (point.getD j 0) (v.getD j 0))
    (name : String) : Double.Same (m.valueAt point name) (m.valueAt v name) := by
  unfold Model.valueAt
  split
  · exact h _
  · rfl

/-- A solution at a point reports that point, and every other point with the same numbers. -/
theorem reports_atPoint (hm : m.WellFormed) {point : List Float} {status : Status}
    (h : ∀ j, Double.Same (point.getD j 0) (v.getD j 0)) :
    (Solution.atPoint m status point).Reports m v where
  values j var x hvar hx := by
    refine ⟨_, Solution.value?_atPoint hm (List.mem_of_getElem? hvar), ?_⟩
    have hvalue : m.valueAt v var.id = x := by
      simp only [Model.valueAt, hm.indexOf?_eq_some hvar, List.getD_eq_getElem?_getD, hx,
        Option.getD_some]
    exact hvalue ▸ same_valueAt h var.id
  activities c hc := ⟨_, Solution.activity?_atPoint hm hc, Double.same_evaluate (same_valueAt h)⟩
  objective := ⟨_, rfl, Double.same_evaluate (same_valueAt h)⟩

/-- **The answer comes back to the variables.** For an answer with a point, the solution has the status that the
answer gives and reports the point that the answer lists, whatever it says of the objective value. -/
theorem solutionOf_reports (h : m.Accepted) (hv : v.length = m.numVariables) {words text : String}
    {status : Status}
    (hstatus : (words, status) ∈ [("optimal solution found", Status.optimal),
      ("gap limit reached", .optimal), ("time limit reached", .timeLimitReached)])
    (htext : Answers v words text) :
    (solutionOf m text).status = status ∧ (solutionOf m text).Reports m v := by
  obtain ⟨point, hread, hpoint⟩ := read_of_answers htext
  have hsolution : solutionOf m text = .atPoint m status point := by
    rw [solutionOf, ← hv, hread]
    simp only [List.mem_cons, List.not_mem_nil, Prod.mk.injEq, or_false] at hstatus
    obtain ⟨rfl, rfl⟩ | ⟨rfl, rfl⟩ | ⟨rfl, rfl⟩ := hstatus <;> rfl
  rw [hsolution]
  exact ⟨rfl, reports_atPoint h.wellFormed hpoint⟩

/-- An answer to `ModelFile.wares`: its second variable, `x1` to the engine, is 4 and its first one, which is
`x1` to everybody else, a negative zero. -/
def waresAnswer : String :=
  "\nsolution status: optimal solution found\r\nobjective value: 99\n \n  x1   4 \t(obj:3)\n"

theorem solutionOf_reports_wares :
    ModelFile.wares.Accepted ∧ [-0.0, 4].length = ModelFile.wares.numVariables ∧
      Answers [-0.0, 4] "optimal solution found" waresAnswer ∧
      (solutionOf ModelFile.wares waresAnswer).status = .optimal ∧
      (solutionOf ModelFile.wares waresAnswer).Reports ModelFile.wares [-0.0, 4] :=
  have hbody : Lists [-0.0, 4]
      ["objective value: 99".toList, " ".toList, "  x1   4 \t(obj:3)".toList] [1] :=
    .idle (.inr ⟨" 99".toList, by decide +kernel⟩)
      (.idle (.inl (by decide +kernel))
        (.value rfl (by decide +kernel : _ = _ :: "4".toList :: ["(obj:3)".toList]) (by decide +kernel)
          (.refl 4) .nil))
  have hzero : ∀ j x, [-0.0, 4][j]? = some x → j ∉ [1] → (x == 0) = true := by
    intro j x hx hj
    match j with
    | 0 => cases hx; decide +kernel
    | 1 => exact absurd (List.mem_singleton_self 1) hj
  have htext : Answers [-0.0, 4] "optimal solution found" waresAnswer :=
    ⟨[[]], "solution status: optimal solution found".toList, " optimal solution found".toList, _, [1],
      by decide +kernel, by decide +kernel, by decide +kernel, by decide +kernel, hbody, hzero⟩
  ⟨ModelFile.accepted_wares, rfl, htext,
    solutionOf_reports ModelFile.accepted_wares rfl (.head _) htext⟩

end Reports

end SolutionFile

end LinearProgram
