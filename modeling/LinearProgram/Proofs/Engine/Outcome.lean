import Mathlib
import LinearProgram.Proofs.Engine.SolutionReader

/-!
# What an answer of the engine comes to

The solution file of an engine that ended with success decides the status of the solution alone. `Gives` is
the table of these decisions: it has a line for every file, and for the file that is not there
(`status_solutionIn_iff`).
-/

namespace LinearProgram.SolutionFile

open Text

/-- The words for a solution that is as good as it needs to be. -/
def Final (words : String) : Prop :=
  words = "optimal solution found" ∨ words = "gap limit reached"

/-- The status that the engine's words stand for, where `empty` says that there is no solution with them. -/
inductive Means (words : String) (empty : Prop) : Status → Prop
  | optimal (hwords : Final words) (hpoint : ¬ empty) : Means words empty .optimal
  | withoutPoint (hwords : Final words) (hempty : empty) : Means words empty .error
  | infeasible (hwords : words = "infeasible") : Means words empty .infeasible
  | unbounded (hwords : words = "unbounded") : Means words empty .unbounded
  | timeLimitReached (hwords : words = "time limit reached") : Means words empty .timeLimitReached
  | unknown (hfinal : ¬ Final words)
      (hother : words ∉ ["infeasible", "unbounded", "time limit reached"]) : Means words empty .error

/-- The status that comes of what was found in place of the solution file. -/
inductive Gives : Except FileError ByteArray → Status → Prop
  | missing (e : FileError) : Gives (.error e) .error
  | notUtf8 {bytes} (hbytes : String.fromUTF8? bytes = none) : Gives (.ok bytes) .error
  | noStatus {bytes text} (hbytes : String.fromUTF8? bytes = some text)
      (hfirst : ∀ first body, content text = first :: body → ¬ statusMark <+: first) :
      Gives (.ok bytes) .error
  | damaged {bytes text words body line} (hbytes : String.fromUTF8? bytes = some text)
      (hcontent : content text = (statusMark ++ words) :: body)
      (hline : line ∈ counting body) (hdamaged : Damaged line) : Gives (.ok bytes) .error
  | stated {bytes text words body status} (hbytes : String.fromUTF8? bytes = some text)
      (hcontent : content text = (statusMark ++ words) :: body)
      (hlines : ∀ line ∈ counting body, ¬ Damaged line)
      (hmeans : Means (String.ofList (trim words)) (∃ line ∈ body, emptyMark <+: line) status) :
      Gives (.ok bytes) status

/-! ## Words -/

theorem Means.total (words : String) (empty : Prop) : ∃ status, Means words empty status := by
  by_cases hfinal : Final words
  · by_cases hempty : empty
    · exact ⟨_, .withoutPoint hfinal hempty⟩
    · exact ⟨_, .optimal hfinal hempty⟩
  by_cases hother : words ∈ ["infeasible", "unbounded", "time limit reached"]
  · simp only [List.mem_cons, List.not_mem_nil, or_false] at hother
    obtain hwords | hwords | hwords := hother
    · exact ⟨_, .infeasible hwords⟩
    · exact ⟨_, .unbounded hwords⟩
    · exact ⟨_, .timeLimitReached hwords⟩
  · exact ⟨_, .unknown hfinal hother⟩

theorem Means.status_toSolution {file : SolutionFile} {status : Status}
    (h : Means file.status (file.point? = none) status) (m : Model Float) :
    (file.toSolution m).status = status := by
  obtain ⟨words, point?⟩ := file
  cases h with
  | optimal hwords hpoint =>
    obtain ⟨point, rfl⟩ := Option.ne_none_iff_exists'.mp hpoint
    obtain rfl | rfl := hwords <;> rfl
  | withoutPoint hwords hempty =>
    subst hempty
    obtain rfl | rfl := hwords <;> rfl
  | infeasible hwords =>
    subst hwords
    rfl
  | unbounded hwords =>
    subst hwords
    rfl
  | timeLimitReached hwords =>
    subst hwords
    cases point? <;> rfl
  | unknown hfinal hother =>
    have hstatus : statusOf words = .error := by
      unfold Final at hfinal
      simp_all [statusOf]
    simp only [toSolution, hstatus]
    rfl

/-! ## Files -/

section Text

variable {text : String} (m : Model Float)

theorem status_solutionOf_noStatus
    (hfirst : ∀ first body, content text = first :: body → ¬ statusMark <+: first) :
    (solutionOf m text).status = .error := by
  have hread : read m.numVariables text = .error .noStatus := by
    rw [read]
    split
    · rfl
    · next first body hcontent =>
      have hmark : after? statusMark first = none := by
        have hstart := hfirst first body hcontent
        rwa [← startsWith_iff, startsWith, Bool.not_eq_true, Option.isSome_eq_false_iff,
          Option.isNone_iff_eq_none] at hstart
      rw [hmark]
  rw [solutionOf, hread]
  rfl

variable {words : List Char} {body : List (List Char)}
  (hcontent : content text = (statusMark ++ words) :: body)
include hcontent

theorem read_of_content (n : ℕ) :
    read n text = (readValues (List.replicate n 0) body).map (⟨String.ofList (trim words), ·⟩) := by
  rw [read, hcontent]
  simp only [after?_eq_some_iff.mpr rfl]
  cases readValues (List.replicate n 0) body <;> rfl

theorem status_solutionOf_damaged {line : List Char} (hline : line ∈ counting body)
    (hdamaged : Damaged line) : (solutionOf m text).status = .error := by
  have hspec := readValues_spec (List.replicate m.numVariables 0) body
  rw [solutionOf, read_of_content hcontent]
  cases hvalues : readValues (List.replicate m.numVariables 0) body with
  | error e => rfl
  | ok point? =>
    rw [hvalues] at hspec
    exact absurd hdamaged (hspec.1 line hline)

theorem status_solutionOf_stated {status : Status} (hlines : ∀ line ∈ counting body, ¬ Damaged line)
    (hmeans : Means (String.ofList (trim words)) (∃ line ∈ body, emptyMark <+: line) status) :
    (solutionOf m text).status = status := by
  have hspec := readValues_spec (List.replicate m.numVariables 0) body
  rw [solutionOf, read_of_content hcontent]
  cases hvalues : readValues (List.replicate m.numVariables 0) body with
  | error e =>
    rw [hvalues] at hspec
    obtain ⟨line, hline, hdamaged⟩ := hspec
    exact absurd hdamaged (hlines line hline)
  | ok point? =>
    rw [hvalues] at hspec
    rw [← hspec.2] at hmeans
    exact hmeans.status_toSolution m

end Text

theorem Gives.total (answer : Except FileError ByteArray) : ∃ status, Gives answer status := by
  match answer with
  | .error e => exact ⟨_, .missing e⟩
  | .ok bytes =>
    cases hbytes : String.fromUTF8? bytes with
    | none => exact ⟨_, .notUtf8 hbytes⟩
    | some text =>
      by_cases hfirst : ∀ first body, content text = first :: body → ¬ statusMark <+: first
      · exact ⟨_, .noStatus hbytes hfirst⟩
      push Not at hfirst
      obtain ⟨_, body, hcontent, words, rfl⟩ := hfirst
      by_cases hlines : ∀ line ∈ counting body, ¬ Damaged line
      · obtain ⟨status, hmeans⟩ := Means.total (String.ofList (trim words)) (∃ line ∈ body, emptyMark <+: line)
        exact ⟨status, .stated hbytes hcontent hlines hmeans⟩
      · push Not at hlines
        obtain ⟨line, hline, hdamaged⟩ := hlines
        exact ⟨_, .damaged hbytes hcontent hline hdamaged⟩

theorem Gives.status_solutionIn {answer : Except FileError ByteArray} {status : Status}
    (h : Gives answer status) (m : Model Float) : (solutionIn m answer).status = status := by
  cases h with
  | missing e => rfl
  | notUtf8 hbytes =>
    simp only [solutionIn, textOf, hbytes]
    rfl
  | noStatus hbytes hfirst =>
    simp only [solutionIn, textOf, hbytes]
    exact status_solutionOf_noStatus m hfirst
  | damaged hbytes hcontent hline hdamaged =>
    simp only [solutionIn, textOf, hbytes]
    exact status_solutionOf_damaged m hcontent hline hdamaged
  | stated hbytes hcontent hlines hmeans =>
    simp only [solutionIn, textOf, hbytes]
    exact status_solutionOf_stated m hcontent hlines hmeans

/-- The status of the solution is the one that the table gives, for every model. -/
theorem status_solutionIn_iff {m : Model Float} {answer : Except FileError ByteArray} {status : Status} :
    (solutionIn m answer).status = status ↔ Gives answer status := by
  refine ⟨?_, fun h => h.status_solutionIn m⟩
  rintro rfl
  obtain ⟨status, hgives⟩ := Gives.total answer
  rwa [hgives.status_solutionIn m]

end LinearProgram.SolutionFile
