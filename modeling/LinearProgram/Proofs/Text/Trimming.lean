import Mathlib
import LinearProgram.Proofs.Text.Words

/-!
# Trimming and words

Blanks at the ends of a text belong to no word, so that trimming keeps the words (`words_trim`). A trimmed
text starts where its first word starts.
-/

namespace LinearProgram.Text

theorem words_cons {b : Char} (hb : isBlank b = true) (cs : List Char) : words (b :: cs) = words cs :=
  words_append_cons hb [] cs

theorem words_concat {b : Char} (hb : isBlank b = true) (cs : List Char) : words (cs ++ [b]) = words cs := by
  rw [words_append_cons hb cs []]
  exact List.append_nil _

/-! ## The words of a trimmed text -/

theorem words_trimStart (cs : List Char) : words (trimStart cs) = words cs := by
  unfold trimStart
  induction cs with
  | nil => rfl
  | cons c cs ih =>
    rw [List.dropWhile_cons]
    split
    · next hc => rw [ih, words_cons hc]
    · rfl

/-- A blank at the end is dropped, and what comes before it is trimmed. -/
theorem trimEnd_concat (cs : List Char) (c : Char) :
    trimEnd (cs ++ [c]) = if isBlank c then trimEnd cs else cs ++ [c] := by
  rw [trimEnd, List.reverse_concat, List.dropWhile_cons]
  split
  · rfl
  · rw [List.reverse_cons, List.reverse_reverse]

theorem words_trimEnd (cs : List Char) : words (trimEnd cs) = words cs := by
  induction cs using List.reverseRecOn with
  | nil => rfl
  | append_singleton cs c ih =>
    rw [trimEnd_concat]
    split
    · next hc => rw [ih, words_concat hc]
    · rfl

theorem words_trim (cs : List Char) : words (trim cs) = words cs := by
  rw [trim, words_trimEnd, words_trimStart]

/-! ## Where a trimmed text starts -/

theorem isBlank_of_trimStart_eq_cons {cs rest : List Char} {c : Char} (h : trimStart cs = c :: rest) :
    isBlank c = false := by
  have hhead := List.head?_dropWhile_not isBlank cs
  rwa [show cs.dropWhile isBlank = c :: rest from h] at hhead

theorem trimEnd_cons {c : Char} (hc : isBlank c = false) (cs : List Char) :
    trimEnd (c :: cs) = c :: trimEnd cs := by
  induction cs using List.reverseRecOn with
  | nil => simp [trimEnd, hc]
  | append_singleton cs d ih =>
    rw [← List.cons_append, trimEnd_concat, trimEnd_concat, ih]
    split <;> rfl

/-- The first word of a text that starts with a visible character starts with it. -/
theorem exists_words_cons {c : Char} (hc : isBlank c = false) (cs : List Char) :
    ∃ w ws, words (c :: cs) = (c :: w) :: ws := by
  obtain ⟨w, ws, hsplit⟩ := List.exists_cons_of_ne_nil (List.splitOnP_ne_nil isBlank cs)
  refine ⟨w, ws.filter fun word => !word.isEmpty, ?_⟩
  simp [words, List.splitOnP_cons_eq_if_modifyHead, hc, hsplit]

/-- A text with words starts, once it is trimmed, as the first of them does. -/
theorem exists_trim_eq_cons {cs w : List Char} {c : Char} {ws : List (List Char)}
    (h : words cs = (c :: w) :: ws) : ∃ rest, trim cs = c :: rest := by
  rw [← words_trimStart] at h
  cases hstart : trimStart cs with
  | nil =>
    rw [hstart] at h
    exact absurd h (List.cons_ne_nil _ _).symm
  | cons d rest =>
    have hd := isBlank_of_trimStart_eq_cons hstart
    obtain ⟨w', ws', hwords⟩ := exists_words_cons hd rest
    rw [hstart, hwords] at h
    obtain rfl : d = c := (List.cons.inj (List.cons.inj h).1).1
    exact ⟨trimEnd rest, by rw [trim, hstart, trimEnd_cons hd]⟩

end LinearProgram.Text
