import Mathlib
import LinearProgram.Proofs.Text.Trimming

/-!
# How texts are laid out

The words of a line may stand between any blanks, and its lines may end in two ways. Trimming and taking
words apart do not see the blanks around a text (`trim_between`, `words_fields`), and once a line is trimmed
it makes no difference in which way it ended (`trim_dropReturn`).
-/

namespace LinearProgram.Text

/-! ## Blanks around a text -/

/-- A text of blanks, or none at all. -/
def Blank (cs : List Char) : Prop :=
  ∀ c ∈ cs, isBlank c = true

instance : DecidablePred Blank :=
  fun cs => List.decidableBAll (fun c => isBlank c = true) cs

/-- A text of visible characters, at least one of them. -/
def Solid (w : List Char) : Prop :=
  w ≠ [] ∧ ∀ c ∈ w, isBlank c = false

instance : DecidablePred Solid :=
  fun w => @instDecidableAnd _ _ inferInstance (List.decidableBAll (fun c => isBlank c = false) w)

/-- What can follow a word: nothing, or a text that starts with a blank. -/
def SetOff (cs : List Char) : Prop :=
  ∀ c ∈ cs.head?, isBlank c = true

instance : DecidablePred SetOff :=
  fun cs => decidable_of_iff (cs.head?.all isBlank = true) (by cases cs <;> simp [SetOff])

theorem words_append_of_blank {lead : List Char} (h : Blank lead) (cs : List Char) :
    words (lead ++ cs) = words cs := by
  induction lead with
  | nil => rfl
  | cons b lead ih =>
    obtain ⟨hb, hlead⟩ := List.forall_mem_cons.mp h
    rw [List.cons_append, words_cons hb, ih hlead]

theorem words_word_append {w rest : List Char} (hw : Solid w) (hrest : SetOff rest) :
    words (w ++ rest) = w :: words rest := by
  have hword : words w = [w] := by
    rw [words, List.splitOnP_eq_singleton fun c hc => by simpa using hw.2 c hc]
    simpa using hw.1
  cases rest with
  | nil => rw [List.append_nil, hword]; rfl
  | cons b rest =>
    have hb : isBlank b = true := hrest b rfl
    rw [words_append_cons hb, hword, words_cons hb]
    rfl

/-- The line starts, after blanks, with two fields. Whatever else is on it is set off from them. -/
def Fields (first second line : List Char) : Prop :=
  ∃ lead gap more, line = lead ++ (first ++ (gap ++ (second ++ more))) ∧ Blank lead ∧ Blank gap ∧ gap ≠ [] ∧
    SetOff more ∧ Solid first ∧ Solid second

/-- The first two words of a line are its fields. -/
theorem words_fields {first second line : List Char} (h : Fields first second line) :
    ∃ more, words line = first :: second :: more := by
  obtain ⟨lead, gap, more, rfl, hlead, hgap, hne, hmore, hfirst, hsecond⟩ := h
  have hsetOff : SetOff (gap ++ (second ++ more)) := by
    obtain ⟨b, gap, rfl⟩ := List.exists_cons_of_ne_nil hne
    intro c hc
    cases hc
    exact hgap b List.mem_cons_self
  refine ⟨words more, ?_⟩
  rw [words_append_of_blank hlead, words_word_append hfirst hsetOff, words_append_of_blank hgap,
    words_word_append hsecond hmore]

/-! ## Trimming -/

theorem trimStart_append_of_blank {lead : List Char} (h : Blank lead) (cs : List Char) :
    trimStart (lead ++ cs) = trimStart cs :=
  List.dropWhile_append_of_pos h

theorem trimEnd_append_of_blank {tail : List Char} (h : Blank tail) (cs : List Char) :
    trimEnd (cs ++ tail) = trimEnd cs := by
  rw [trimEnd, List.reverse_append, List.dropWhile_append_of_pos fun c hc => h c (List.mem_reverse.mp hc)]
  rfl

theorem trimStart_eq_nil_iff {cs : List Char} : trimStart cs = [] ↔ Blank cs :=
  List.dropWhile_eq_nil_iff

theorem trim_eq_nil_iff {cs : List Char} : trim cs = [] ↔ Blank cs := by
  rw [← trimStart_eq_nil_iff]
  cases hstart : trimStart cs with
  | nil => simp [trim, hstart, trimEnd]
  | cons c rest =>
    have hc := isBlank_of_trimStart_eq_cons hstart
    simp [trim, hstart, trimEnd_cons hc]

theorem trimStart_append {cs : List Char} (h : ¬ Blank cs) (tail : List Char) :
    trimStart (cs ++ tail) = trimStart cs ++ tail := by
  have hne : (cs.dropWhile isBlank).isEmpty = false := by
    rw [← trimStart_eq_nil_iff] at h
    simpa [trimStart] using h
  rw [trimStart, List.dropWhile_append, hne]
  rfl

/-- Blanks at the ends of a text are trimmed away. -/
theorem trim_between {lead tail : List Char} (hlead : Blank lead) (htail : Blank tail) (cs : List Char) :
    trim (lead ++ (cs ++ tail)) = trim cs := by
  rw [trim, trimStart_append_of_blank hlead, trim]
  by_cases hcs : Blank cs
  · have hall : Blank (cs ++ tail) := List.forall_mem_append.mpr ⟨hcs, htail⟩
    rw [trimStart_eq_nil_iff.mpr hcs, trimStart_eq_nil_iff.mpr hall]
  · rw [trimStart_append hcs, trimEnd_append_of_blank htail]

/-- Blanks at the end of a text are trimmed away. -/
theorem trim_append_of_blank {tail : List Char} (htail : Blank tail) (cs : List Char) :
    trim (cs ++ tail) = trim cs :=
  trim_between (List.forall_mem_nil _) htail cs

theorem trim_trimEnd (cs : List Char) : trim (trimEnd cs) = trim cs := by
  induction cs using List.reverseRecOn with
  | nil => rfl
  | append_singleton cs c ih =>
    rw [trimEnd_concat]
    split
    · next hc =>
      have hblank : Blank [c] := List.forall_mem_singleton.mpr hc
      exact ih.trans (trim_append_of_blank hblank cs).symm
    · rfl

theorem trimEnd_append {front : List Char} (h : trimEnd front = front) (rest : List Char) :
    trimEnd (front ++ rest) = front ++ trimEnd rest := by
  induction rest using List.reverseRecOn with
  | nil => rw [List.append_nil, h]; exact (List.append_nil front).symm
  | append_singleton rest c ih =>
    rw [← List.append_assoc, trimEnd_concat, trimEnd_concat, ih]
    split <;> simp

/-- What a line starts with, after blanks, is still its start when the line is trimmed. -/
theorem trim_front {lead front : List Char} (hlead : Blank lead) (hvisible : ¬ Blank front)
    (hstart : trimStart front = front) (hend : trimEnd front = front) (rest : List Char) :
    trim (lead ++ (front ++ rest)) = front ++ trimEnd rest := by
  rw [trim, trimStart_append_of_blank hlead, trimStart_append hvisible, hstart, trimEnd_append hend]

/-! ## Lines -/

/-- The text consists of the lines. Each ends with a line feed, which a carriage return may precede, and the
last one may end with the text. -/
inductive IsLines : List Char → List (List Char) → Prop
  | nil : IsLines [] []
  | last {l} (h : '\n' ∉ l) : IsLines l [l]
  | feed {l cs ls} (h : '\n' ∉ l) (hcs : IsLines cs ls) : IsLines (l ++ '\n' :: cs) (l :: ls)
  | returnFeed {l cs ls} (h : '\n' ∉ l) (hcs : IsLines cs ls) :
      IsLines (l ++ '\r' :: '\n' :: cs) (l :: ls)

/-- The characters after the last line feed make up a line, unless there are none. -/
theorem linesFrom_of_not_mem {l : List Char} (h : '\n' ∉ l) (current : List Char) :
    linesFrom current l = if current.reverse ++ l = [] then [] else [current.reverse ++ l] := by
  induction l generalizing current with
  | nil => cases current <;> simp [linesFrom]
  | cons c l ih =>
    obtain ⟨hc, hl⟩ := not_or.mp (mt List.mem_cons.mpr h)
    rw [linesFrom, if_neg (Ne.symm hc), ih hl]
    simp

/-- A carriage return at the end of a line is trimmed away. -/
theorem trim_concat_return (l : List Char) : trim (l ++ ['\r']) = trim l :=
  trim_append_of_blank (by decide) l

theorem trim_dropReturn (l : List Char) : trim (dropReturn l) = trim l := by
  unfold dropReturn
  split
  · next hlast =>
    obtain ⟨l, rfl⟩ := List.getLast?_eq_some_iff.mp hlast
    rw [List.dropLast_concat]
    exact (trim_concat_return l).symm
  · rfl

end LinearProgram.Text
