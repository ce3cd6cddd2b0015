import Mathlib
import LinearProgram.Proofs.Engine.SolutionFile
import LinearProgram.Proofs.Text.Layout

/-!
# Solution files as they are written

A solution file may give the values of variables in any order and more than once, and among other lines: the
engine's objective value, blank lines, and lines for names that no variable has. Fields stand between any
blanks, and lines end in either way. What is read back is the value that each variable was given last, and
zero for the others. A line that says that there is no solution withdraws all values (`read_headed`).
-/

namespace LinearProgram.SolutionFile

open Text

/-! ## Names and positions -/

/-- The number in digits behind at most one plus sign, if it is less than `2 ^ 64`. -/
def position? (cs : List Char) : Option ℕ :=
  let digits := if cs.head? = some '+' then cs.tail else cs
  if digits ≠ [] ∧ digits.all Char.isDigit ∧ Decimal.ofDigits digits < 2 ^ 64 then
    some (Decimal.ofDigits digits)
  else none

/-- The position of a variable found from its name: the digits are read, and the name has to be the one that
the position gives. -/
def parsedColumn? (n : ℕ) (name : String) : Option ℕ :=
  match name.toList with
  | 'x' :: digits => (position? digits).filter fun i => i < n && ModelFile.columnName i == name
  | _ => none

theorem position?_toDigits {i : ℕ} (hi : i < 2 ^ 64) : position? (Nat.toDigits 10 i) = some i := by
  have hdigits : ∀ c ∈ Nat.toDigits 10 i, c.isDigit = true := fun c => Decimal.isDigit_of_mem_toDigits
  have hsign : (Nat.toDigits 10 i).head? ≠ some '+' := by
    intro hhead
    exact absurd (hdigits '+' (List.mem_of_mem_head? hhead)) (by decide)
  rw [position?, if_neg hsign, Decimal.ofDigits_toDigits]
  exact if_pos ⟨Nat.toDigits_ne_nil, List.all_eq_true.mpr hdigits, hi⟩

/-- Looking a name up among those of the first `n` variables is the same as reading its digits and printing
them again: neither leading zeros nor a sign nor a number that is too large pass for a name. -/
theorem columnOf?_eq_parsedColumn? {n : ℕ} (hn : n ≤ 2 ^ 64) (name : String) :
    columnOf? n name = parsedColumn? n name := by
  cases hcolumn : columnOf? n name with
  | some i =>
    obtain ⟨hname, hi, -⟩ := List.find?_range_eq_some.mp hcolumn
    obtain rfl : ModelFile.columnName i = name := by simpa using hname
    have hi : i < n := by simpa using hi
    rw [parsedColumn?, ModelFile.toList_columnName]
    simp only [position?_toDigits (hi.trans_le hn), Option.filter_some, hi, decide_true, beq_self_eq_true,
      Bool.and_self, if_true]
  | none =>
    have hnone : ∀ i < n, ModelFile.columnName i ≠ name := by
      simpa [columnOf?, List.find?_range_eq_none] using hcolumn
    symm
    rw [parsedColumn?]
    split
    · rw [Option.filter_eq_none_iff]
      intro i _ hi
      simp only [Bool.and_eq_true, decide_eq_true_eq, beq_iff_eq] at hi
      exact hnone i hi.1 hi.2
    · rfl

/-! ## Lines -/

/-- A line with the engine's own objective value. -/
def ObjectiveLine (line : List Char) : Prop :=
  ∃ lead rest, line = lead ++ (objectiveMark ++ rest) ∧ Blank lead

/-- A line that says that there is no solution. -/
def EmptyLine (line : List Char) : Prop :=
  ∃ lead rest, line = lead ++ (emptyMark ++ rest) ∧ Blank lead

/-- The lines give the values in `given`, in this order, to variables at positions below `n`. Between them
are lines that give nothing: those with an objective value, blank ones, and those that have a number behind
a name of no variable. -/
inductive Assigns (n : ℕ) : List (List Char) → List (ℕ × Float) → Prop
  | nil : Assigns n [] []
  | value {line field lines given i x} (hi : i < n)
      (hline : Fields (ModelFile.columnName i).toList field line)
      (hfield : Decimal.read? (String.ofList field) = some x) (h : Assigns n lines given) :
      Assigns n (line :: lines) ((i, x) :: given)
  | objective {line lines given} (hline : ObjectiveLine line) (h : Assigns n lines given) :
      Assigns n (line :: lines) given
  | blank {line lines given} (hline : Blank line) (h : Assigns n lines given) :
      Assigns n (line :: lines) given
  | stranger {line name field lines given x} (hline : Fields name field line)
      (hname : ∀ i < n, name ≠ (ModelFile.columnName i).toList)
      (hfield : Decimal.read? (String.ofList field) = some x) (h : Assigns n lines given) :
      Assigns n (line :: lines) given

/-- After blank lines the text has a status line with the given words, and then the lines of `body`. -/
def Headed (status : String) (body : List (List Char)) (text : String) : Prop :=
  ∃ blanks lead gap tail, IsLines text.toList
      (blanks ++ (lead ++ (statusMark ++ (gap ++ status.toList ++ tail))) :: body) ∧
    (∀ line ∈ blanks, Blank line) ∧ Blank lead ∧ Blank gap ∧ Blank tail

/-! ## What is read of them -/

theorem contentOf_cons_congr {l l' : List Char} {ls ls' : List (List Char)} (hl : trim l = trim l')
    (hls : contentOf ls = contentOf ls') : contentOf (l :: ls) = contentOf (l' :: ls') := by
  by_cases hnil : trim l = []
  · rw [contentOf_cons_of_blank hnil, contentOf_cons_of_blank (hl ▸ hnil), hls]
  · rw [contentOf_cons hnil, contentOf_cons (hl ▸ hnil), hl, hls]

/-- It makes no difference how the lines of a text end. -/
theorem contentOf_lines {cs : List Char} {ls : List (List Char)} (h : IsLines cs ls) :
    contentOf (lines cs) = contentOf ls := by
  induction h with
  | nil => rfl
  | @last l hl =>
    rw [lines, linesFrom_of_not_mem hl]
    by_cases hnil : l = []
    · subst hnil
      rfl
    · simp [hnil]
  | @feed l cs ls hl _ ih =>
    rw [lines, linesFrom_append hl]
    exact contentOf_cons_congr (trim_dropReturn l) ih
  | @returnFeed l cs ls hl _ ih =>
    have hreturn : '\n' ∉ l ++ ['\r'] := by simpa using hl
    rw [lines, List.append_cons, linesFrom_append hreturn]
    exact contentOf_cons_congr ((trim_dropReturn _).trans (trim_concat_return l)) ih

/-- A line with two fields is not blank, and the second one of a line that says that there is no solution
is not a number. -/
theorem unmarked_of_fields {name field line : List Char} {x : Float} (h : Fields name field line)
    (hfield : Decimal.read? (String.ofList field) = some x) :
    trim line ≠ [] ∧ ¬ emptyMark <+: trim line := by
  obtain ⟨more, hwords⟩ := words_fields h
  rw [← words_trim] at hwords
  refine ⟨fun hnil => ?_, ?_⟩
  · rw [hnil] at hwords
    cases hwords
  · rintro ⟨rest, hrest⟩
    have hmark : emptyMark ++ rest =
        "no".toList ++ ' ' :: ("solution".toList ++ ' ' :: ("available".toList ++ rest)) := rfl
    have hsecond : words (emptyMark ++ rest) =
        "no".toList :: "solution".toList :: words ("available".toList ++ rest) := by
      rw [hmark, words_append_blank, words_append_blank]
      rfl
    rw [← hrest, hsecond] at hwords
    obtain rfl : "solution".toList = field := by injection (List.cons.inj hwords).2
    have hnumber : Decimal.read? (String.ofList "solution".toList) = none := by decide +kernel
    rw [hnumber] at hfield
    cases hfield

theorem objectiveMark_of_objectiveLine {line : List Char} (h : ObjectiveLine line) :
    objectiveMark <+: trim line := by
  obtain ⟨lead, rest, rfl, hlead⟩ := h
  rw [trim_front hlead (by decide) (by decide) (by decide)]
  exact List.prefix_append _ _

theorem emptyMark_of_emptyLine {line : List Char} (h : EmptyLine line) : emptyMark <+: trim line := by
  obtain ⟨lead, rest, rfl, hlead⟩ := h
  rw [trim_front hlead (by decide) (by decide) (by decide)]
  exact List.prefix_append _ _

theorem ne_nil_of_starts {c : Char} {mark line : List Char} (h : (c :: mark) <+: line) : line ≠ [] := by
  rintro rfl
  exact List.cons_ne_nil _ _ (List.prefix_nil.mp h)

/-- A name of no variable gives no value. -/
theorem assign_of_stranger {name : List Char} {point : List Float}
    (h : ∀ i < point.length, name ≠ (ModelFile.columnName i).toList) (x : Float) :
    assign (String.ofList name) x point = point := by
  have hnone : columnOf? point.length (String.ofList name) = none := by
    rw [columnOf?, List.find?_range_eq_none]
    intro i hi
    simpa using fun heq => h i hi (by rw [heq, String.toList_ofList])
  rw [assign, hnone]

/-- The lines give their values one after the other, whatever comes after them. -/
theorem readValues_of_assigns {n : ℕ} {lines : List (List Char)} {given : List (ℕ × Float)}
    (h : Assigns n lines given) (rest : List (List Char)) {point : List Float} (hpoint : point.length = n) :
    readValues point (contentOf (lines ++ rest)) =
      readValues (given.foldl (fun point g => point.set g.1 g.2) point) (contentOf rest) := by
  induction h generalizing point with
  | nil => rfl
  | @value line field lines given i x hi hline hfield _ ih =>
    obtain ⟨more, hwords⟩ := words_fields hline
    obtain ⟨hne, hobjective, hempty⟩ := unmarked_of_words hwords
    rw [← words_trim] at hwords
    rw [List.cons_append, contentOf_cons hne, readValues_value hobjective hempty hwords hfield,
      String.ofList_toList, assign_columnName (hpoint ▸ hi), ih (by rwa [List.length_set])]
    rfl
  | @objective line lines given hline _ ih =>
    have hmark := objectiveMark_of_objectiveLine hline
    rw [List.cons_append, contentOf_cons (ne_nil_of_starts hmark), readValues_objective hmark]
    exact ih hpoint
  | @blank line lines given hline _ ih =>
    rw [List.cons_append, contentOf_cons_of_blank (trim_eq_nil_iff.mpr hline)]
    exact ih hpoint
  | @stranger line name field lines given x hline hname hfield _ ih =>
    obtain ⟨hne, hempty⟩ := unmarked_of_fields hline hfield
    rw [List.cons_append, contentOf_cons hne]
    by_cases hobjective : objectiveMark <+: trim line
    · rw [readValues_objective hobjective]
      exact ih hpoint
    · obtain ⟨more, hwords⟩ := words_fields hline
      rw [← words_trim] at hwords
      rw [readValues_value hobjective hempty hwords hfield, assign_of_stranger (hpoint ▸ hname)]
      exact ih hpoint

/-! ## The point -/

section Point

variable {given : List (ℕ × Float)} {point : List Float}

theorem length_foldl_set :
    (given.foldl (fun point g => point.set g.1 g.2) point).length = point.length := by
  induction given generalizing point with
  | nil => rfl
  | cons g given ih => rw [List.foldl_cons, ih, List.length_set]

/-- A position to which no value is given keeps its own. -/
theorem getElem?_foldl_set_of_not_mem {i : ℕ} (h : i ∉ given.map Prod.fst) :
    (given.foldl (fun point g => point.set g.1 g.2) point)[i]? = point[i]? := by
  induction given generalizing point with
  | nil => rfl
  | cons g given ih =>
    rw [List.map_cons, List.mem_cons, not_or] at h
    rw [List.foldl_cons, ih h.2, List.getElem?_set_ne (Ne.symm h.1)]

/-- Of several values for a position the last one counts. -/
theorem getElem?_foldl_set {before after : List (ℕ × Float)} {i : ℕ} (x : Float) (hi : i < point.length)
    (h : i ∉ after.map Prod.fst) :
    ((before ++ (i, x) :: after).foldl (fun point g => point.set g.1 g.2) point)[i]? = some x := by
  rw [List.foldl_append, List.foldl_cons, getElem?_foldl_set_of_not_mem h, List.getElem?_set_self]
  rwa [length_foldl_set]

end Point

theorem lt_of_assigns {n : ℕ} {lines : List (List Char)} {given : List (ℕ × Float)}
    (h : Assigns n lines given) : ∀ g ∈ given, g.1 < n := by
  induction h with
  | nil => simp
  | value hi _ _ _ ih => exact List.forall_mem_cons.mpr ⟨hi, ih⟩
  | objective _ _ ih | blank _ _ ih | stranger _ _ _ _ ih => exact ih

theorem content_of_headed {status text : String} {body : List (List Char)} (h : Headed status body text) :
    ∃ rest, content text = (statusMark ++ rest) :: contentOf body ∧ trim rest = trim status.toList := by
  obtain ⟨blanks, lead, gap, tail, htext, hblanks, hlead, hgap, htail⟩ := h
  refine ⟨trimEnd (gap ++ status.toList ++ tail), ?_, ?_⟩
  · have hfirst := trim_front hlead (by decide : ¬ Blank statusMark) (by decide) (by decide)
      (gap ++ status.toList ++ tail)
    have hne : trim (lead ++ (statusMark ++ (gap ++ status.toList ++ tail))) ≠ [] :=
      hfirst ▸ List.cons_ne_nil _ _
    rw [show content text = contentOf (lines text.toList) from rfl, contentOf_lines htext,
      contentOf_append_of_blank fun line hline => trim_eq_nil_iff.mpr (hblanks line hline),
      contentOf_cons hne, hfirst]
  · rw [trim_trimEnd, List.append_assoc]
    exact trim_between hgap htail _

/-- **What is written is read back.** After a status line, lines that give values, in whatever order and
whatever is between them, are read as the point of `n` entries that has in each place the value given last,
and zero where none is given. If a line that says that there is no solution follows such lines, there is no
point, whatever comes after it. -/
theorem read_headed {n : ℕ} {status text : String} {body : List (List Char)}
    (hstatus : trim status.toList = status.toList) (htext : Headed status body text) :
    (∀ given, Assigns n body given →
      ∃ point, read n text = .ok ⟨status, some point⟩ ∧ point.length = n ∧
        (∀ before i x after, given = before ++ (i, x) :: after → i ∉ after.map Prod.fst →
          point[i]? = some x) ∧
        ∀ i < n, i ∉ given.map Prod.fst → point[i]? = some 0) ∧
      ∀ lines given line rest, body = lines ++ line :: rest → Assigns n lines given → EmptyLine line →
        read n text = .ok ⟨status, none⟩ := by
  obtain ⟨rest, hcontent, hrest⟩ := content_of_headed htext
  have hlength : (List.replicate n (0 : Float)).length = n := List.length_replicate
  have hread (point? : Option (List Float))
      (h : readValues (List.replicate n 0) (contentOf body) = .ok point?) :
      read n text = .ok ⟨status, point?⟩ := by
    rw [read, hcontent]
    simp only [after?_eq_some_iff.mpr rfl, h, hrest, hstatus, String.ofList_toList]
  constructor
  · intro given hbody
    have hvalues := readValues_of_assigns hbody [] hlength
    rw [List.append_nil] at hvalues
    refine ⟨_, hread _ hvalues, by rw [length_foldl_set, hlength], ?_, ?_⟩
    · rintro before i x after rfl hafter
      have hi : i < n := lt_of_assigns hbody (i, x) (by simp)
      exact getElem?_foldl_set x (hlength.symm ▸ hi) hafter
    · intro i hi hgiven
      rw [getElem?_foldl_set_of_not_mem hgiven, List.getElem?_replicate, if_pos hi]
  · rintro lines given line rest rfl hlines hline
    have hmark := emptyMark_of_emptyLine hline
    refine hread none ?_
    rw [readValues_of_assigns hlines _ hlength, contentOf_cons (ne_nil_of_starts hmark),
      readValues_empty hmark]

/-- Lines that give `x1` two values, with a line for a name that looks like that of a variable. -/
def crowdedLines : List (List Char) :=
  [" x1 \t4 (obj:3)".toList, "objective value: 99".toList, [' '], "x01 7".toList, "x1 5e-1".toList]

/-- A status line and those lines, which end in different ways. -/
def crowdedText : List Char :=
  "solution status: gap limit reached".toList ++ '\r' :: '\n' ::
    (" x1 \t4 (obj:3)".toList ++ '\n' :: ("objective value: 99".toList ++ '\r' :: '\n' ::
      ([' '] ++ '\n' :: ("x01 7".toList ++ '\n' :: "x1 5e-1".toList))))

/-- The file with that text. -/
def crowded : String :=
  String.ofList crowdedText

theorem isLines_crowdedText :
    IsLines crowdedText ("solution status: gap limit reached".toList :: crowdedLines) := by
  unfold crowdedText crowdedLines
  refine .returnFeed (by decide +kernel) (.feed (by decide +kernel) ?_)
  refine .returnFeed (by decide +kernel) (.feed (by decide +kernel) (.feed (by decide +kernel) ?_))
  exact .last (by decide +kernel)

theorem headed_crowded : Headed "gap limit reached" crowdedLines crowded := by
  have hfirst : [] ++ (statusMark ++ ([' '] ++ "gap limit reached".toList ++ [])) =
      "solution status: gap limit reached".toList := by decide +kernel
  have htext : crowded.toList = crowdedText := String.toList_ofList
  refine ⟨[], [], [' '], [], ?_, by decide, by decide, by decide, by decide⟩
  rw [hfirst, htext]
  exact isLines_crowdedText

theorem assigns_crowdedLines : Assigns 2 crowdedLines [(1, 4), (1, 0.5)] := by
  have hfour : Fields (ModelFile.columnName 1).toList ['4'] " x1 \t4 (obj:3)".toList :=
    ⟨[' '], [' ', '\t'], " (obj:3)".toList, by decide +kernel, by decide +kernel, by decide +kernel,
      by decide, by decide +kernel, by decide +kernel, by decide +kernel⟩
  have hseven : Fields "x01".toList ['7'] "x01 7".toList :=
    ⟨[], [' '], [], by decide +kernel, by decide +kernel, by decide +kernel, by decide, by decide +kernel,
      by decide +kernel, by decide +kernel⟩
  have hhalf : Fields (ModelFile.columnName 1).toList "5e-1".toList "x1 5e-1".toList :=
    ⟨[], [' '], [], by decide +kernel, by decide +kernel, by decide +kernel, by decide, by decide +kernel,
      by decide +kernel, by decide +kernel⟩
  have hname : ∀ i < 2, "x01".toList ≠ (ModelFile.columnName i).toList := by decide +kernel
  have hobjective : ObjectiveLine "objective value: 99".toList :=
    ⟨[], " 99".toList, by decide +kernel, by decide⟩
  have hnumber : Decimal.read? (String.ofList ['7']) = some 7 := by decide +kernel
  exact .value (by decide) hfour (by decide +kernel) (.objective hobjective (.blank (by decide)
    (.stranger hseven hname hnumber (.value (by decide) hhalf (by decide +kernel) .nil))))

theorem read_headed_crowded :
    trim "gap limit reached".toList = "gap limit reached".toList ∧
      Headed "gap limit reached" crowdedLines crowded ∧
      ∃ point, read 2 crowded = .ok ⟨"gap limit reached", some point⟩ ∧ point.length = 2 ∧
        point[1]? = some 0.5 ∧ point[0]? = some 0 := by
  have hstatus : trim "gap limit reached".toList = "gap limit reached".toList := by decide +kernel
  obtain ⟨point, hread, hlength, hgiven, hother⟩ :=
    (read_headed hstatus headed_crowded).1 _ assigns_crowdedLines
  exact ⟨hstatus, headed_crowded, point, hread, hlength, hgiven [(1, 4)] 1 0.5 [] rfl (by decide),
    hother 0 (by decide) (by decide)⟩

end LinearProgram.SolutionFile
