import Mathlib
import LinearProgram.Text.Blank
import LinearProgram.Text.Lines

/-!
# Words and lines that come back

Words that are written with a blank in front of each are the words of what has been written
(`words_spaced`), and lines that are written with a line feed behind each are its lines
(`lines_unlines`). Both ask that the pieces do not contain what separates them.
-/

namespace LinearProgram.Text

/-! ## Words -/

/-- A text that stands as one word: it is not empty, and none of its characters is blank. -/
structure IsWord (w : String) : Prop where
  ne_nil : w.toList ≠ []
  not_blank : ∀ c ∈ w.toList, isBlank c = false

instance : DecidablePred IsWord := fun w =>
  decidable_of_iff (w.toList ≠ [] ∧ w.toList.all (fun c => !isBlank c) = true)
    ⟨fun h => ⟨h.1, by simpa using h.2⟩, fun h => ⟨h.ne_nil, by simpa using h.not_blank⟩⟩

/-- Words that are joined are a word. -/
theorem IsWord.append {v w : String} (hv : IsWord v) (hw : IsWord w) : IsWord (v ++ w) where
  ne_nil := by
    rw [String.toList_append]
    exact List.append_ne_nil_of_left_ne_nil hv.ne_nil _
  not_blank c hc := by
    rw [String.toList_append, List.mem_append] at hc
    exact hc.elim (hv.not_blank c) (hw.not_blank c)

/-- Words with a blank in front of each. -/
def spaced (ws : List String) : List Char :=
  ws.flatMap fun w => ' ' :: w.toList

@[simp]
theorem spaced_nil : spaced [] = [] :=
  rfl

@[simp]
theorem spaced_cons (w : String) (ws : List String) : spaced (w :: ws) = ' ' :: (w.toList ++ spaced ws) :=
  rfl

@[simp]
theorem spaced_append (ws ws' : List String) : spaced (ws ++ ws') = spaced ws ++ spaced ws' :=
  List.flatMap_append

/-- Whatever blank is between two texts, it belongs to no word of either. -/
theorem words_append_cons {b : Char} (hb : isBlank b = true) (xs ys : List Char) :
    words (xs ++ b :: ys) = words xs ++ words ys := by
  unfold words
  rw [List.splitOnP_append_cons xs ys hb, List.filter_append]

theorem words_append_blank (xs ys : List Char) : words (xs ++ ' ' :: ys) = words xs ++ words ys :=
  words_append_cons (by decide) xs ys

/-- A blank at the front of a text belongs to no word. -/
theorem words_cons_blank (cs : List Char) : words (' ' :: cs) = words cs :=
  words_append_blank [] cs

theorem IsWord.words_eq {w : String} (h : IsWord w) : words w.toList = [w.toList] := by
  rw [words, List.splitOnP_eq_singleton fun c hc => by simpa using h.not_blank c hc]
  simpa using h.ne_nil

/-- Words that are written with a blank in front of each are read back. -/
theorem words_spaced {ws : List String} (h : ∀ w ∈ ws, IsWord w) :
    words (spaced ws) = ws.map String.toList := by
  induction ws with
  | nil => decide
  | cons w ws ih =>
    rw [spaced_cons, words_cons_blank, List.map_cons, ← ih fun w' hw' => h w' (List.mem_cons_of_mem _ hw')]
    have hw := (h w List.mem_cons_self).words_eq
    cases ws with
    | nil => rw [spaced_nil, List.append_nil, hw]; rfl
    | cons w' ws => rw [spaced_cons, words_append_blank, words_cons_blank, hw]; rfl

/-- The only blank among words that are written that way is the one in front of each. -/
theorem eq_blank_of_mem_spaced {ws : List String} (h : ∀ w ∈ ws, IsWord w) {c : Char}
    (hc : c ∈ spaced ws) : c = ' ' ∨ isBlank c = false := by
  obtain ⟨w, hw, hcw⟩ := List.mem_flatMap.mp hc
  rcases List.mem_cons.mp hcw with rfl | hcw
  · exact .inl rfl
  · exact .inr ((h w hw).not_blank c hcw)

/-! ## Lines -/

/-- A text that stands as one line: it contains neither the end of a line nor a carriage return. -/
def IsLine (cs : List Char) : Prop :=
  ∀ c ∈ cs, c ≠ '\n' ∧ c ≠ '\r'

instance : DecidablePred IsLine :=
  fun cs => List.decidableBAll (fun c => c ≠ '\n' ∧ c ≠ '\r') cs

/-- Lines with a line feed behind each. -/
def unlines (ls : List (List Char)) : List Char :=
  ls.flatMap fun l => l ++ ['\n']

theorem isLine_spaced {ws : List String} (h : ∀ w ∈ ws, IsWord w) : IsLine (spaced ws) := by
  intro c hc
  rcases eq_blank_of_mem_spaced h hc with rfl | hblank
  · decide
  · constructor <;> rintro rfl <;> exact absurd hblank (by decide)

/-- The characters up to the next line feed make up a line, after those that were read before. -/
theorem linesFrom_append {l : List Char} (h : '\n' ∉ l) (current rest : List Char) :
    linesFrom current (l ++ '\n' :: rest) = dropReturn (current.reverse ++ l) :: linesFrom [] rest := by
  induction l generalizing current with
  | nil => rw [List.nil_append, linesFrom, if_pos rfl, List.append_nil]
  | cons c l ih =>
    obtain ⟨hc, hl⟩ := not_or.mp (mt List.mem_cons.mpr h)
    rw [List.cons_append, linesFrom, if_neg (Ne.symm hc), ih hl]
    simp

theorem IsLine.not_mem {l : List Char} (h : IsLine l) : '\n' ∉ l :=
  fun hmem => (h '\n' hmem).1 rfl

theorem IsLine.dropReturn_eq {l : List Char} (h : IsLine l) : dropReturn l = l := by
  refine if_neg fun hlast => ?_
  exact (h '\r' (List.mem_of_getLast? hlast)).2 rfl

/-- Lines that are written with a line feed behind each are read back. -/
theorem lines_unlines {ls : List (List Char)} (h : ∀ l ∈ ls, IsLine l) : lines (unlines ls) = ls := by
  induction ls with
  | nil => rfl
  | cons l ls ih =>
    have hl := h l List.mem_cons_self
    have hrest := ih fun l' hl' => h l' (List.mem_cons_of_mem _ hl')
    have hcons : unlines (l :: ls) = l ++ '\n' :: unlines ls := by simp [unlines]
    rw [lines, hcons, linesFrom_append hl.not_mem, List.reverse_nil, List.nil_append, hl.dropReturn_eq]
    exact congrArg (l :: ·) hrest

end LinearProgram.Text
