/-!
# What a text starts with
-/

namespace LinearProgram.Text

/-- What follows `front` in a text that starts with it. -/
def after? : (front cs : List Char) → Option (List Char)
  | [], cs => some cs
  | _ :: _, [] => none
  | f :: fs, c :: cs => if f = c then after? fs cs else none

/-- A text starts with `front` when it is `front` and something more. -/
theorem after?_eq_some_iff {front cs rest : List Char} :
    after? front cs = some rest ↔ cs = front ++ rest := by
  induction front generalizing cs with
  | nil => simp [after?]
  | cons f fs ih =>
    cases cs with
    | nil => simp [after?]
    | cons c cs =>
      by_cases h : f = c
      · subst h
        simp [after?, ih]
      · simp [after?, h, Ne.symm h]

/-- Whether a text starts with `front`. -/
def startsWith (front cs : List Char) : Bool :=
  (after? front cs).isSome

end LinearProgram.Text
