import Mathlib
import LinearProgram.Proofs.Engine.ModelReader
import LinearProgram.Proofs.Model.Feasibility

/-!
# LP files that read back

Each line of the file of a model is a sequence of words with a blank in front of each, so that the reader
gets back the words, from the words the signed products, and from those the columns of the dense program.
The identifiers of the model are in none of the lines. The dense program adds the coefficients to zeros as
the reader does; that the reader adds magnitudes with signs makes no difference to a sum that starts from
zero.
-/

namespace LinearProgram.ModelFile

open Text

variable {m : Model Float}

/-- The terms of an expression with the positions of their variables in place of the names. -/
def placed (m : Model Float) (e : LinearExpr Float) : List (ℕ × Float) :=
  e.terms.filterMap fun t => (m.indexOf? t.name).map fun j => (j, t.coefficient)

/-- The expressions of a model: the objective, and one for every constraint. -/
def expressions (m : Model Float) : List (LinearExpr Float) :=
  m.objective.expression :: m.constraints.map Constraint.expression

/-- The numbers that the file shows: magnitudes of coefficients, and bounds of constraints. -/
def numbers (m : Model Float) : List Float :=
  (expressions m).flatMap (fun e => e.terms.map fun t => Scalar.abs t.coefficient) ++
    m.constraints.map Constraint.bound

/-! ## The words of the lines -/

/-- The words of a signed product. -/
def productWords (p : ℕ × Float) : List String :=
  [if Scalar.lt p.2 0 then "-" else "+", Decimal.plain (Scalar.abs p.2), columnName p.1]

/-- The words of an expression. -/
def expressionWords (ps : List (ℕ × Float)) : List String :=
  if ps = [] then ["0", "x0"] else ps.flatMap productWords

/-- The words of the line of a constraint. -/
def constraintWords (m : Model Float) (c : Constraint Float) (i : ℕ) : List String :=
  (rowName i ++ ":") ::
    (expressionWords (placed m c.expression) ++ [relationSign c.relation, Decimal.plain c.bound])

/-- The words of the file by sections. -/
def sections (m : Model Float) : Sections where
  sense := senseWord m.objective.sense
  objective := expressionWords (placed m m.objective.expression)
  rows := m.constraints.zipIdx.map fun c => constraintWords m c.1 c.2
  bounds := (List.range m.numVariables).map nonNegative

theorem isWord_columnName (j : ℕ) : IsWord (columnName j) :=
  .append (by decide) (Decimal.isWord_natText j)

theorem isWord_rowLabel (i : ℕ) : IsWord (rowName i ++ ":") :=
  .append (.append (by decide) (Decimal.isWord_natText i)) (by decide)

theorem isWord_productWords {p : ℕ × Float} : ∀ w ∈ productWords p, IsWord w := by
  simp only [productWords, List.forall_mem_cons]
  refine ⟨?_, Decimal.isWord_plain _, isWord_columnName _, by simp⟩
  split <;> decide

theorem isWord_expressionWords {ps : List (ℕ × Float)} : ∀ w ∈ expressionWords ps, IsWord w := by
  unfold expressionWords
  split
  · decide
  · intro w hw
    obtain ⟨p, -, hw⟩ := List.mem_flatMap.mp hw
    exact isWord_productWords w hw

theorem isWord_constraintWords {c : Constraint Float} {i : ℕ} :
    ∀ w ∈ constraintWords m c i, IsWord w := by
  simp only [constraintWords, List.forall_mem_cons, List.forall_mem_append]
  refine ⟨isWord_rowLabel i, isWord_expressionWords, ?_, Decimal.isWord_plain _, by simp⟩
  cases c.relation <;> decide

theorem toList_product (p : ℕ × Float) : (product p.1 p.2).toList = spaced (productWords p) := by
  simp [product, productWords]

/-- Products that are written one after the other are their words. -/
theorem flatMap_toList_product (ps : List (ℕ × Float)) :
    (ps.map fun p => product p.1 p.2).flatMap String.toList = spaced (ps.flatMap productWords) := by
  induction ps with
  | nil => rfl
  | cons p ps ih =>
    rw [List.map_cons, List.flatMap_cons, ih, toList_product, List.flatMap_cons, spaced_append]

theorem toList_expression (e : LinearExpr Float) :
    (expression m e).toList = spaced (expressionWords (placed m e)) := by
  have hproducts : e.terms.filterMap (fun t => (m.indexOf? t.name).map fun j => product j t.coefficient) =
      (placed m e).map fun p => product p.1 p.2 := by
    rw [placed, List.map_filterMap]
    simp [Function.comp_def]
  unfold expression expressionWords
  simp only [hproducts]
  cases hps : placed m e with
  | nil => rfl
  | cons p ps =>
    rw [if_neg (by simp), if_neg (by simp), String.toList_join, flatMap_toList_product]

/-! ## The statements of the file -/

/-- A text that stands as one line, and what it states. -/
structure Stands (line : String) (stated : Option (List String)) : Prop where
  isLine : IsLine line.toList
  statement?_eq : statement? line.toList = stated

/-- Words with a blank in front of each are a statement. -/
theorem stands_of_toList_eq {line w : String} {ws : List String} (h : line.toList = spaced (w :: ws))
    (hw : ∀ v ∈ w :: ws, IsWord v) : Stands line (some (w :: ws)) where
  isLine := h ▸ isLine_spaced hw
  statement?_eq := by
    rw [statement?, h, if_neg (by simp), words_spaced hw, List.map_map]
    simp [Function.comp_def]

theorem stands_header : Stands (header m) none := by
  have hwords : ∀ w ∈ ["lpkit", "model:", Decimal.natText m.numVariables, "variables,",
      Decimal.natText m.numConstraints, "constraints"], IsWord w := by
    simp only [List.forall_mem_cons]
    exact ⟨by decide, by decide, Decimal.isWord_natText _, by decide,
      Decimal.isWord_natText _, by decide, by simp⟩
  have hheader : (header m).toList = '\\' :: spaced ["lpkit", "model:", Decimal.natText m.numVariables,
      "variables,", Decimal.natText m.numConstraints, "constraints"] := by
    unfold header
    -- digits are not to be worked out while the words are compared
    generalize Decimal.natText m.numVariables = n
    generalize Decimal.natText m.numConstraints = k
    simp
  refine ⟨?_, by rw [hheader]; rfl⟩
  rw [hheader]
  exact List.forall_mem_cons.mpr ⟨by decide, isLine_spaced hwords⟩

theorem stands_senseWord (sense : Sense) : Stands (senseWord sense) (some [senseWord sense]) := by
  cases sense <;> exact ⟨by decide, by decide⟩

theorem stands_subjectTo : Stands "Subject To" (some ["Subject", "To"]) :=
  ⟨by decide, by decide⟩

theorem stands_bounds : Stands "Bounds" (some ["Bounds"]) :=
  ⟨by decide, by decide⟩

theorem stands_end : Stands "End" (some ["End"]) :=
  ⟨by decide, by decide⟩

theorem stands_objectiveLine :
    Stands (" obj:" ++ expression m m.objective.expression)
      (some ("obj:" :: expressionWords (placed m m.objective.expression))) := by
  refine stands_of_toList_eq (by simp [toList_expression]) (List.forall_mem_cons.mpr ⟨?_, ?_⟩)
  · decide
  · exact isWord_expressionWords

theorem stands_constraintLine (c : Constraint Float) (i : ℕ) :
    Stands (constraintLine m c i) (some (constraintWords m c i)) :=
  stands_of_toList_eq (by simp [constraintLine, toList_expression]) isWord_constraintWords

theorem stands_boundLine (v : Variable) (j : ℕ) : Stands (boundLine v j) (some (nonNegative j)) := by
  have hzero : Decimal.plain (Domain.nonNegativeReals.lower : Float) = "0" := by decide +kernel
  obtain ⟨id, domain⟩ := v
  cases domain
  refine stands_of_toList_eq (by simp [boundLine, Domain.upper?, hzero, columnName]) ?_
  simp only [List.forall_mem_cons]
  exact ⟨isWord_columnName j, by decide, by decide, by simp⟩

theorem isLine_of_mem_lines {l : String} (h : l ∈ lines m) : IsLine l.toList := by
  simp only [lines, List.mem_append, List.mem_cons, List.not_mem_nil, or_false, List.mem_map] at h
  rcases h with (((((rfl | rfl | rfl | rfl) | ⟨c, -, rfl⟩) | rfl) | ⟨v, -, rfl⟩) | rfl)
  · exact stands_header.isLine
  · exact (stands_senseWord _).isLine
  · exact stands_objectiveLine.isLine
  · exact stands_subjectTo.isLine
  · exact (stands_constraintLine _ _).isLine
  · exact stands_bounds.isLine
  · exact (stands_boundLine _ _).isLine
  · exact stands_end.isLine

theorem lines_text (m : Model Float) : Text.lines (text m).toList = (lines m).map String.toList := by
  have htext : (text m).toList = unlines ((lines m).map String.toList) := by
    simp [text, unlines, String.toList_join, List.flatMap_map]
  rw [htext, lines_unlines (List.forall_mem_map.mpr fun l hl => isLine_of_mem_lines hl)]

/-- The file states what its lines are made from. -/
theorem filterMap_statement? (m : Model Float) :
    (Text.lines (text m).toList).filterMap statement? = (sections m).statements := by
  have hconstraints : (fun c : Constraint Float × ℕ => statement? (constraintLine m c.1 c.2).toList) =
      some ∘ fun c => constraintWords m c.1 c.2 :=
    funext fun c => (stands_constraintLine c.1 c.2).statement?_eq
  have hbounds : (fun v : Variable × ℕ => statement? (boundLine v.1 v.2).toList) =
      some ∘ fun v => nonNegative v.2 :=
    funext fun v => (stands_boundLine v.1 v.2).statement?_eq
  rw [lines_text]
  simp only [lines, Sections.statements, sections, List.map_append, List.map_cons, List.map_nil,
    List.filterMap_append, List.filterMap_cons, List.filterMap_nil, List.map_map, List.filterMap_map,
    Function.comp_def]
  simp only [stands_header.statement?_eq, (stands_senseWord _).statement?_eq,
    stands_objectiveLine.statement?_eq, stands_subjectTo.statement?_eq, hconstraints,
    stands_bounds.statement?_eq, hbounds, stands_end.statement?_eq, List.filterMap_eq_map]
  have hnumbers : m.vars.zipIdx.map (fun v => nonNegative v.2) =
      (List.range m.numVariables).map nonNegative := by
    rw [Model.numVariables, List.range_eq_range', ← List.zipIdx_map_snd, List.map_map]
    rfl
  rw [hnumbers]

/-! ## Reading back -/

/-- A product as it is read: a magnitude with a sign. -/
def asRead (p : ℕ × Float) : ℕ × Float :=
  (p.1, Double.signed (Scalar.lt p.2 0) (Scalar.abs p.2))

theorem products?_flatMap_productWords {ps : List (ℕ × Float)} {rest : List String}
    (hread : ∀ p ∈ ps, Decimal.read? (Decimal.plain (Scalar.abs p.2)) = some (Scalar.abs p.2))
    (hrest : rest.length < 3) :
    products? (ps.flatMap productWords ++ rest) = some (ps.map asRead, rest) := by
  induction ps with
  | nil => exact products?_of_length_lt hrest
  | cons p ps ih =>
    obtain ⟨hp, hps⟩ := List.forall_mem_cons.mp hread
    exact products?_cons (minus?_sign _) hp (column?_columnName _) (ih hps)

/-- The words of an expression are read as its terms. -/
theorem expression?_expressionWords {ps : List (ℕ × Float)} {rest : List String}
    (hread : ∀ p ∈ ps, Decimal.read? (Decimal.plain (Scalar.abs p.2)) = some (Scalar.abs p.2))
    (hrest : rest.length < 3) :
    expression? (expressionWords ps ++ rest) = some (ps.map asRead, rest) := by
  have hproducts := products?_flatMap_productWords hread hrest
  cases ps with
  | nil => rfl
  | cons p ps =>
    -- a sign in front tells the expression from the one without terms
    have hsign : (if Scalar.lt p.2 0 then "-" else "+") ≠ "0" := by split <;> decide
    rw [expressionWords, if_neg (by simp), expression?, if_neg, hproducts]
    simp [productWords, hsign]

/-! ## Columns -/

/-- Only what becomes of the entry itself counts. -/
theorem modify_congr {α : Type} {l : List α} {j : ℕ} {f g : α → α}
    (h : ∀ x, l[j]? = some x → f x = g x) : l.modify j f = l.modify j g := by
  refine List.ext_getElem? fun i => ?_
  rw [List.getElem?_modify, List.getElem?_modify]
  by_cases hi : j = i
  · subst hi
    cases hx : l[j]? with
    | none => rfl
    | some x => simp [h x hx]
  · simp only [if_neg hi]

/-- To a column that is zero, a product adds the same as it is and as it is read. -/
theorem modify_asRead {p : ℕ × Float} (hp : p.2.isFinite = true) {columns : List Float}
    (hzero : ∀ x, columns[p.1]? = some x → x = 0) :
    columns.modify (asRead p).1 (· + (asRead p).2) = columns.modify p.1 (· + p.2) := by
  refine modify_congr fun x hx => ?_
  rw [hzero x hx]
  exact Double.zero_add_signed_abs hp

/-- Terms in different columns are added to zeros as they are read. -/
theorem foldl_asRead {ps : List (ℕ × Float)} (hnd : (ps.map Prod.fst).Nodup)
    (hfin : ∀ p ∈ ps, p.2.isFinite = true) {columns : List Float}
    (hzero : ∀ p ∈ ps, ∀ x, columns[p.1]? = some x → x = 0) :
    (ps.map asRead).foldl (fun columns p => columns.modify p.1 (· + p.2)) columns =
      ps.foldl (fun columns p => columns.modify p.1 (· + p.2)) columns := by
  induction ps generalizing columns with
  | nil => rfl
  | cons p ps ih =>
    obtain ⟨hnew, hnd⟩ := List.nodup_cons.mp hnd
    obtain ⟨hp, hps⟩ := List.forall_mem_cons.mp hfin
    obtain ⟨hpzero, hpszero⟩ := List.forall_mem_cons.mp hzero
    rw [List.map_cons, List.foldl_cons, List.foldl_cons, modify_asRead hp hpzero]
    -- the columns of the other terms are still zero
    refine ih hnd hps fun q hq x hx => ?_
    have hne : p.1 ≠ q.1 := fun h => hnew (h ▸ List.mem_map_of_mem hq)
    rw [List.getElem?_modify] at hx
    simp only [if_neg hne, id_map'] at hx
    exact hpszero q hq x hx

theorem dense_eq_foldl (e : LinearExpr Float) :
    e.dense m.vars =
      (placed m e).foldl (fun columns p => columns.modify p.1 (· + p.2))
        (List.replicate m.numVariables 0) := by
  have hterms (ts : List (Term Float)) (columns : List Float) :
      ts.foldl (Term.addTo m.vars) columns =
        (placed m ⟨ts⟩).foldl (fun columns p => columns.modify p.1 (· + p.2)) columns := by
    induction ts generalizing columns with
    | nil => rfl
    | cons t ts ih =>
      rw [List.foldl_cons, ih]
      unfold placed Term.addTo Model.indexOf?
      cases hj : positionOf? m.vars t.name <;> simp [hj]
  exact hterms e.terms _

theorem mem_placed {e : LinearExpr Float} {p : ℕ × Float} (hp : p ∈ placed m e) :
    p.1 < m.numVariables ∧ ∃ t ∈ e.terms, t.coefficient = p.2 := by
  obtain ⟨t, ht, hplace⟩ := List.mem_filterMap.mp hp
  obtain ⟨j, hj, rfl⟩ := Option.map_eq_some_iff.mp hplace
  exact ⟨lt_length_of_positionOf? hj, t, ht, rfl⟩

/-- Different names have different positions. -/
theorem nodup_placed {e : LinearExpr Float} (h : e.names.Nodup) : ((placed m e).map Prod.fst).Nodup := by
  have hpositions : (placed m e).map Prod.fst = e.names.filterMap m.indexOf? := by
    rw [placed, List.map_filterMap, LinearExpr.names, List.filterMap_map]
    simp [Function.comp_def]
  rw [hpositions]
  refine h.filterMap fun a a' j ha ha' => ?_
  obtain ⟨v, hv, rfl⟩ := id_of_positionOf? ha
  obtain ⟨v', hv', rfl⟩ := id_of_positionOf? ha'
  rw [Option.some.inj (hv.symm.trans hv')]

/-- The columns that are read are those of the dense program. -/
theorem columns?_placed {e : LinearExpr Float} (h : e.Over (m.vars.map Variable.id)) :
    columns? m.numVariables ((placed m e).map asRead) = some (e.dense m.vars) := by
  have hlt : ∀ p ∈ (placed m e).map asRead, p.1 < m.numVariables :=
    List.forall_mem_map.mpr fun p hp => (mem_placed hp).1
  have hfinite : ∀ p ∈ placed m e, p.2.isFinite = true := by
    intro p hp
    obtain ⟨-, t, ht, hcoefficient⟩ := mem_placed hp
    exact hcoefficient ▸ List.all_eq_true.mp h.finite t ht
  have hzero : ∀ p ∈ placed m e, ∀ x : Float, (List.replicate m.numVariables 0)[p.1]? = some x → x = 0 :=
    fun p _ x hx => List.eq_of_mem_replicate (List.mem_of_getElem? hx)
  rw [columns?, if_pos hlt, columns, foldl_asRead (nodup_placed h.nodup) hfinite hzero, dense_eq_foldl]

/-! ## The file -/

theorem positional_dense (m : Model Float) :
    m.dense.positional =
      { names := (List.range m.numVariables).map columnName
        objective := m.dense.objective
        sense := m.objective.sense
        rows := m.constraints.zipIdx.map fun c => { c.1.dense m.vars with name := rowName c.2 } } := by
  rw [DenseProgram.positional, Model.numVariables_dense, Model.dense, List.zipIdx_map, List.map_map]
  rfl

section Read

variable (hread : ∀ x ∈ numbers m, Decimal.read? (Decimal.plain x) = some x)
include hread

theorem read?_abs {e : LinearExpr Float} (he : e ∈ expressions m) {p : ℕ × Float} (hp : p ∈ placed m e) :
    Decimal.read? (Decimal.plain (Scalar.abs p.2)) = some (Scalar.abs p.2) := by
  obtain ⟨-, t, ht, hcoefficient⟩ := mem_placed hp
  refine hread _ (List.mem_append_left _ (List.mem_flatMap.mpr ⟨e, he, ?_⟩))
  exact List.mem_map.mpr ⟨t, ht, by rw [hcoefficient]⟩

variable (h : m.WellFormed)
include h

theorem objective?_expressionWords :
    objective? m.numVariables (expressionWords (placed m m.objective.expression)) =
      some m.dense.objective := by
  have hshort : ([] : List String).length < 3 := by decide
  have hexpression := expression?_expressionWords (fun p => read?_abs hread List.mem_cons_self) hshort
  rw [List.append_nil] at hexpression
  rw [objective?, hexpression]
  exact columns?_placed h.objective

theorem row?_constraintWords {c : Constraint Float} (hc : c ∈ m.constraints) (i : ℕ) :
    row? m.numVariables i (constraintWords m c i) = some { c.dense m.vars with name := rowName i } := by
  have he : c.expression ∈ expressions m := List.mem_cons_of_mem _ (List.mem_map_of_mem hc)
  have hbound := hread c.bound (List.mem_append_right _ (List.mem_map_of_mem hc))
  rw [constraintWords, row?, expression?_expressionWords (fun p => read?_abs hread he) (by simp)]
  simp [columns?_placed (h.constraints c hc).1, hbound, Constraint.dense, rowName]

/-- The lines of constraints are read one after the other. -/
theorem rows?_constraintWords {cs : List (Constraint Float)} (hcs : cs ⊆ m.constraints) (i : ℕ) :
    rows? m.numVariables i ((cs.zipIdx i).map fun c => constraintWords m c.1 c.2) =
      some ((cs.zipIdx i).map fun c => { c.1.dense m.vars with name := rowName c.2 }) := by
  induction cs generalizing i with
  | nil => rfl
  | cons c cs ih =>
    obtain ⟨hc, hcs⟩ := List.cons_subset.mp hcs
    simp only [List.zipIdx_cons, List.map_cons, rows?, row?_constraintWords hread h hc, ih hcs]
    rfl

/-- The sections are read as the dense program. -/
theorem program?_sections : (sections m).program? = some m.dense.positional := by
  have hbounds : (sections m).bounds = (List.range m.numVariables).map nonNegative := rfl
  have hlength : (sections m).bounds.length = m.numVariables := by simp [sections]
  have hobjective := objective?_expressionWords hread h
  have hrows := rows?_constraintWords hread h (List.Subset.refl _) 0
  rw [positional_dense, Sections.program?, hlength, if_pos hbounds]
  simp [sections, hobjective, hrows, columnName]

end Read

theorem sections?_sections (m : Model Float) :
    sections? (sections m).statements = some (sections m) := by
  refine sections?_statements (List.forall_mem_map.mpr fun c _ => ?_)
    (List.forall_mem_map.mpr fun j _ => ?_)
  · simp [constraintWords]
  · simp [nonNegative]

/-- The numbers that the file of an accepted model shows are finite. -/
theorem finite_of_mem_numbers (h : m.WellFormed) {x : Float} (hx : x ∈ numbers m) : x.isFinite = true := by
  have hexpression {e : LinearExpr Float} (he : e ∈ expressions m) : e.isFinite = true := by
    rcases List.mem_cons.mp he with rfl | he
    · exact h.objective.finite
    · obtain ⟨c, hc, rfl⟩ := List.mem_map.mp he
      exact (h.constraints c hc).1.finite
  rcases List.mem_append.mp hx with hx | hx
  · obtain ⟨e, he, hx⟩ := List.mem_flatMap.mp hx
    obtain ⟨t, ht, rfl⟩ := List.mem_map.mp hx
    exact Double.isFinite_abs (List.all_eq_true.mp (hexpression he) t ht)
  · obtain ⟨c, hc, rfl⟩ := List.mem_map.mp hx
    exact (h.constraints c hc).2

/-- **The file is the model.** Where the text of a finite number reads back, the file of a model reads as the
dense program of the model under the names that positions give. -/
theorem read?_text (h : m.Accepted)
    (hread : ∀ x ∈ numbers m, x.isFinite = true → Decimal.read? (Decimal.plain x) = some x) :
    read? (text m) = some m.dense.positional := by
  have hm := h.wellFormed
  have hnumbers : ∀ x ∈ numbers m, Decimal.read? (Decimal.plain x) = some x :=
    fun x hx => hread x hx (finite_of_mem_numbers hm hx)
  rw [read?, filterMap_statement?, sections?_sections]
  exact program?_sections hnumbers hm

/-- Minimize `3y` where `2x - 1.5y ≤ 10`, `y ≥ 0.1` and `0 = 0`, with identifiers that look like lines of a
file. -/
def wares : Model Float where
  vars := [⟨"x1", .nonNegativeReals⟩, ⟨" x0 >= 0\nEnd", .nonNegativeReals⟩]
  constraints :=
    [⟨"Bounds", ⟨[⟨"x1", 2⟩, ⟨" x0 >= 0\nEnd", -1.5⟩]⟩, .le, 10⟩,
      ⟨"", ⟨[⟨" x0 >= 0\nEnd", 1⟩]⟩, .ge, 0.1⟩, ⟨"none", ⟨[]⟩, .eq, 0⟩]
  objective := ⟨⟨[⟨" x0 >= 0\nEnd", 3⟩]⟩, .minimize⟩

theorem accepted_wares : wares.Accepted :=
  ⟨[.declare "x1" .nonNegativeReals, .declare " x0 >= 0\nEnd" .nonNegativeReals,
    .constrain "Bounds" [("x1", 2), (" x0 >= 0\nEnd", -1.5)] .le 10,
    .constrain "" [(" x0 >= 0\nEnd", 1)] .ge 0.1, .constrain "none" [] .eq 0,
    .pursue [(" x0 >= 0\nEnd", 3)] .minimize], rfl⟩

theorem read?_text_wares :
    (∀ x ∈ numbers wares, x.isFinite = true → Decimal.read? (Decimal.plain x) = some x) ∧
      read? (text wares) = some wares.dense.positional :=
  have hnumbers : numbers wares = [3, 2, 1.5, 1, 10, 0.1, 0] := by decide +kernel
  have hread : ∀ x ∈ numbers wares, x.isFinite = true → Decimal.read? (Decimal.plain x) = some x := by
    rw [hnumbers]
    decide +kernel
  ⟨hread, read?_text accepted_wares hread⟩

end LinearProgram.ModelFile
