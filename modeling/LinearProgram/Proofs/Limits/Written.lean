import Mathlib
import LinearProgram.Proofs.Json.Written
import LinearProgram.Proofs.Limits.Acceptance

/-!
# Limits that are written and read again

Limits are written as a JSON object with a member for every limit that is set. Each text of that object sets
these limits again, and so does the one that is written, where its numbers read back. What is read was in range
before it is written, so that reading once more changes nothing (`survive_writing`).
-/

namespace LinearProgram.Limits

/-! ## Objects of numbers as texts that set limits -/

theorem item_of_numberText {text : List Char} {x : Float} (h : Json.NumberText text x) :
    Item text (some x) := by
  cases h with
  | positive hu hvalue => exact .positive hu hvalue
  | negative hu hvalue => exact .negative hu hvalue

theorem member_of_number {text : List Char} {limit : Limit} {x : Float}
    (h : Json.Member text (limit.key, .number x)) : Member text (limit, some x) := by
  obtain ⟨hbefore, hname, hbetween, hblanks, htext, hafter⟩ := h
  cases htext with
  | number hx => exact .mk hbefore hname hbetween (.mk hblanks (item_of_numberText hx) hafter)

/-- Members with numbers under the names of limits set these limits. -/
theorem members_of_numbers : ∀ {text : List Char} (entries : List (Limit × Float)),
    Json.Members text (entries.map fun e => (e.1.key, .number e.2)) →
      Members text (entries.map fun e => (e.1, some e.2))
  | _, [], h => nomatch h
  | _, [_], h => by
    cases h with
    | one hmember => exact .one (member_of_number hmember)
    | more _ hmembers => exact nomatch hmembers
  | _, e :: e' :: entries, h => by
    cases h with
    | more hmember hmembers =>
      exact .more (member_of_number hmember) (members_of_numbers (e' :: entries) hmembers)

/-- Every text of the object that limits are written as sets these limits. -/
theorem document_of_denotes {text : List Char} {l : Limits Float} (h : Json.Denotes text l.toJson) :
    Document text l := by
  have hset (limit : Limit) (x : Float) :
      l.get? limit = some x ↔ (limit, some x) ∈ l.toList.map fun e => (e.1, some e.2) := by
    simp [← mem_toList]
  have hnodup : ((l.toList.map fun e => (e.1, some e.2)).map Prod.fst).Nodup := by
    simpa [Function.comp_def] using l.nodup_keys_toList
  unfold toJson at h
  generalize hmembers : (l.toList.map fun e => (e.1.key, Json.number e.2)) = members at h
  cases h with
  | emptyObject hblanks =>
    rw [List.map_eq_nil_iff.mp hmembers] at hset hnodup
    exact .object Json.blanks_nil (.inl ⟨hblanks, rfl⟩) Json.blanks_nil hnodup hset
  | object h =>
    subst hmembers
    exact .object Json.blanks_nil (.inr (members_of_numbers _ h)) Json.blanks_nil hnodup hset

/-! ## Limits in range -/

theorem check_eq_ok {l : Limits Float} :
    l.check = .ok () ↔ ∀ limit x, l.get? limit = some x → x.isFinite = true ∧ ¬x < 0 := by
  rw [← violation?_eq_none, check]
  cases l.violation? <;> simp

/-- The numbers in what limits are written as are the values of those that are set. -/
theorem mem_numbers_toJson {l : Limits Float} {x : Float} :
    x ∈ l.toJson.numbers ↔ ∃ limit, l.get? limit = some x := by
  have hmembers (entries : List (Limit × Float)) :
      Json.memberNumbers (entries.map fun e => (e.1.key, .number e.2)) = entries.map Prod.snd := by
    induction entries with
    | nil => rfl
    | cons e entries ih => simp [Json.memberNumbers, Json.numbers, ih]
  rw [toJson, Json.numbers, hmembers]
  simp [← mem_toList]

section

variable {l : Limits Float} (hread : ∀ limit x, l.get? limit = some x → Json.ReadsBack x)
include hread

theorem denotes_written : Json.Denotes l.toJson.compact.toList l.toJson :=
  Json.denotes_compact l.toJson fun x hx => by
    obtain ⟨limit, hset⟩ := mem_numbers_toJson.mp hx
    exact hread limit x hset

/-- What is written of limits in range is read as these limits. -/
theorem read_written (hrange : l.check = .ok ()) : read l.toJson.compact = .ok l :=
  read_eq_ok.mpr ⟨document_of_denotes (denotes_written hread), check_eq_ok.mp hrange⟩

/-- What is written has one member for every limit that is listed. -/
theorem keys_written : ∃ members, Json.read? l.toJson.compact = some (.object members) ∧
    members.map Prod.fst = l.toList.map fun e => e.1.key := by
  refine ⟨_, Json.read?_of_element (denotes_written hread).element, ?_⟩
  simp [Function.comp_def]

end

/-- **Limits survive being written.** Limits are in range where each one that is set is finite and not below
zero. Where numbers read back, limits in range are what is read from what they are written as, which has the
names of the limits that are listed as its keys, and other limits in range are written in another way. All
limits that are read are in range, so that they can be written and read again. -/
theorem survive_writing :
    (∀ l : Limits Float, l.check = .ok () ↔
      ∀ limit x, l.get? limit = some x → x.isFinite = true ∧ ¬x < 0) ∧
    (∀ l : Limits Float, l.check = .ok () → (∀ limit x, l.get? limit = some x → Json.ReadsBack x) →
      read l.toJson.compact = .ok l ∧
        (∃ members, Json.read? l.toJson.compact = some (.object members) ∧
          members.map Prod.fst = l.toList.map fun e => e.1.key) ∧
        ∀ l' : Limits Float, l'.check = .ok () →
          (∀ limit x, l'.get? limit = some x → Json.ReadsBack x) →
          l'.toJson.compact = l.toJson.compact → l' = l) ∧
    ∀ text (l : Limits Float), read text = .ok l → l.check = .ok () ∧
      ((∀ limit x, l.get? limit = some x → Json.ReadsBack x) → read l.toJson.compact = .ok l) := by
  refine ⟨fun l => check_eq_ok, fun l hrange hread => ⟨read_written hread hrange, keys_written hread, ?_⟩,
    fun text l h => ?_⟩
  · intro l' hrange' hread' htext
    have h' := read_written hread' hrange'
    rw [htext, read_written hread hrange] at h'
    exact (Except.ok.inj h').symm
  · have hrange : l.check = .ok () := check_eq_ok.mpr (read_eq_ok.mp h).2
    exact ⟨hrange, fun hread => read_written hread hrange⟩

/-- A gap of minus zero, and a large time. -/
def patient : Limits Float :=
  ⟨some (-0.0), some 1.5e17⟩

theorem survive_writing_patient :
    patient.check = .ok () ∧ (∀ limit x, patient.get? limit = some x → Json.ReadsBack x) ∧
      read patient.toJson.compact = .ok patient ∧
      (∃ members, Json.read? patient.toJson.compact = some (.object members) ∧
        members.map Prod.fst = ["gap-tolerance", "time-limit-seconds"]) ∧
      ∀ l' : Limits Float, l'.check = .ok () → (∀ limit x, l'.get? limit = some x → Json.ReadsBack x) →
        l'.toJson.compact = patient.toJson.compact → l' = patient := by
  have hrange : patient.check = .ok () := rfl
  have hread : ∀ limit x, patient.get? limit = some x → Json.ReadsBack x := by
    rintro (_ | _) x ⟨⟩ <;> decide +kernel
  exact ⟨hrange, hread, survive_writing.2.1 patient hrange hread⟩

end LinearProgram.Limits
