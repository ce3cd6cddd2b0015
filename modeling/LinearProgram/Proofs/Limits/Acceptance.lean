import Mathlib
import LinearProgram.Proofs.Limits.Document

/-!
# Which texts are accepted

Every number in a text that sets limits is finite. The text is accepted when none of them is below zero, and
refused for the first limit below zero otherwise, the gap before the time wherever they stand in the text.
Any other text is refused because it cannot be read (`read_exactly`).

A file holds limits if it can be read, is UTF-8 and has a text that is accepted (`holds_ofFile`).
-/

namespace LinearProgram.Limits

/-! ## Numbers are finite -/

theorem Item.isFinite {item : List Char} {x : Float} (h : Item item (some x)) : x.isFinite = true := by
  cases h with
  | positive _ hvalue => exact Json.Number.isFinite_value hvalue
  | negative _ hvalue => exact Json.Number.isFinite_value hvalue

theorem Element.isFinite {element : List Char} {x : Float} (h : Element element (some x)) :
    x.isFinite = true := by
  cases h with
  | mk _ hitem _ => exact hitem.isFinite

theorem Members.isFinite {text : List Char} {entries : List (Limit × Option Float)}
    (h : Members text entries) {limit : Limit} {x : Float} (hx : (limit, some x) ∈ entries) :
    x.isFinite = true := by
  induction h with
  | one hmember =>
    obtain rfl := List.mem_singleton.mp hx
    obtain ⟨-, -, -, helement⟩ := hmember
    exact helement.isFinite
  | more hmember _ ih =>
    rcases List.mem_cons.mp hx with rfl | hx
    · obtain ⟨-, -, -, helement⟩ := hmember
      exact helement.isFinite
    · exact ih hx

/-- The limits that a text sets are finite. -/
theorem Document.isFinite {cs : List Char} {l : Limits Float} (h : Document cs l) {limit : Limit}
    {x : Float} (hx : l.get? limit = some x) : x.isFinite = true := by
  cases h with
  | object _ hinner _ _ hentries =>
    have hmem := (hentries limit x).mp hx
    rcases hinner with ⟨-, rfl⟩ | hmembers
    · exact absurd hmem List.not_mem_nil
    · exact hmembers.isFinite hmem
  | list _ hgap htime _ =>
    cases limit with
    | gap =>
      obtain rfl : _ = some x := hx
      exact hgap.isFinite
    | time =>
      obtain rfl : _ = some x := hx
      exact htime.isFinite

/-! ## Texts that cannot be read -/

/-- The errors of texts that cannot be read. -/
def IsParseError (e : LimitsError) : Prop :=
  (∃ cause, e = .malformed cause) ∨ ∃ cause, e = .unfit cause

theorem not_isParseError_outOfRange (limit : Limit) (x : Float) : ¬IsParseError (.outOfRange limit x) := by
  rintro (⟨cause, h⟩ | ⟨cause, h⟩) <;> exact nomatch h

/-- Nothing goes wrong but that the text cannot be read. -/
def OnlyParseErrors {α : Type} (result : Except LimitsError α) : Prop :=
  ∀ e, result = .error e → IsParseError e

namespace OnlyParseErrors

variable {α β : Type}

theorem ok (a : α) : OnlyParseErrors (.ok a) :=
  nofun

theorem malformed (cause : Json.SyntaxError) : OnlyParseErrors (.error (.malformed cause) : Except _ α) := by
  rintro _ ⟨⟩
  exact .inl ⟨cause, rfl⟩

theorem unfit (cause : Mismatch) : OnlyParseErrors (.error (.unfit cause) : Except _ α) := by
  rintro _ ⟨⟩
  exact .inr ⟨cause, rfl⟩

theorem bind {x : Except LimitsError α} {f : α → Except LimitsError β} (hx : OnlyParseErrors x)
    (hf : ∀ a, OnlyParseErrors (f a)) : OnlyParseErrors (x >>= f) := by
  cases x with
  | ok a => exact hf a
  | error e =>
    rintro _ ⟨⟩
    exact hx e rfl

/-- An error is passed on. -/
theorem of_eq {x : Except LimitsError α} (hx : OnlyParseErrors x) {e : LimitsError} (h : x = .error e) :
    OnlyParseErrors (.error e : Except _ β) := by
  rintro _ ⟨⟩
  exact hx e h

theorem of_lift (result : Except Json.SyntaxError α) : OnlyParseErrors (lift result) := by
  cases result with
  | ok a => exact ok a
  | error e => exact malformed e

theorem of_refuse (expected : Expected) (cs : List Char) :
    OnlyParseErrors (refuse expected cs : Except _ α) :=
  (of_lift _).bind fun _ => unfit _

theorem of_readNumber (negative : Bool) (cs : List Char) : OnlyParseErrors (readNumber negative cs) :=
  (of_lift _).bind fun _ => ok _

theorem of_readValue (cs : List Char) : OnlyParseErrors (readValue cs) := by
  unfold readValue
  split
  · exact malformed _
  · exact (of_lift _).bind fun _ => ok _
  · exact of_readNumber _ _
  · split
    · exact of_readNumber _ _
    · exact of_refuse _ _

theorem of_readMembers (unread : List Limit) (limits : Limits Float) (first : Bool) (cs : List Char) :
    OnlyParseErrors (readMembers unread limits first cs) := by
  fun_induction readMembers unread limits first cs with
  | case1 unread limits first cs e h => exact (of_lift _).of_eq h
  | case2 => exact ok _
  | case3 => exact unfit _
  | case4 unread limits first cs key rest hkey limit hlimit hmem e h => exact (of_lift _).of_eq h
  | case5 unread limits first cs key rest hkey limit hlimit hmem rest' hcolon e h =>
    exact (of_readValue _).of_eq h
  | case6 => assumption
  | case7 => exact unfit _

theorem of_readItem (size : ℕ) (cs : List Char) : OnlyParseErrors (readItem size cs) := by
  unfold readItem
  split
  · exact malformed _
  · exact unfit _
  · split
    · exact malformed _
    · split
      · exact malformed _
      · exact of_readValue _
  · split
    · exact of_readValue _
    · exact malformed _

theorem of_readFront (cs : List Char) : OnlyParseErrors (readFront cs) := by
  unfold readFront
  split
  · exact malformed _
  · exact of_readMembers _ _ _ _
  · exact (of_readItem _ _).bind fun _ => (of_readItem _ _).bind fun _ => (of_lift _).bind fun _ => ok _
  · exact of_refuse _ _

theorem of_readAny (text : String) : OnlyParseErrors (readAny text) := by
  refine (of_readFront _).bind fun ⟨limits, rest⟩ => ?_
  dsimp only
  split
  · exact ok _
  · exact malformed _

end OnlyParseErrors

/-! ## Accepted texts -/

theorem violation?_eq (l : Limits Float) :
    l.violation? = l.toList.find? fun e => !e.2.isFinite || decide (e.2 < 0) := by
  have hzero : (0 : Float) = 0.0 := by decide +kernel
  rw [hzero]
  rfl

/-- Limits are in range when each that is set is finite and not below zero. -/
theorem violation?_eq_none {l : Limits Float} :
    l.violation? = none ↔ ∀ limit x, l.get? limit = some x → x.isFinite = true ∧ ¬x < 0 := by
  simp [violation?_eq, List.find?_eq_none, mem_toList]

/-- The first limit that is below zero. -/
structure FirstNegative (l : Limits Float) (limit : Limit) (x : Float) : Prop where
  set : l.get? limit = some x
  neg : x < 0
  first : limit = .time → ∀ y, l.get? .gap = some y → ¬y < 0

/-- Of finite limits the first that is below zero is out of range. -/
theorem violation?_eq_some {l : Limits Float} (hfinite : ∀ limit x, l.get? limit = some x → x.isFinite = true)
    {limit : Limit} {x : Float} : l.violation? = some (limit, x) ↔ FirstNegative l limit x := by
  have hsigns : l.violation? = l.toList.find? fun e => decide (e.2 < 0) := by
    rw [violation?_eq]
    refine List.find?_congr fun e he => ?_
    rw [hfinite e.1 e.2 (mem_toList.mp he)]
    rfl
  rw [hsigns]
  obtain ⟨gap?, time?⟩ := l
  constructor
  · intro h
    have hneg : x < 0 := by simpa using List.find?_some h
    refine ⟨mem_toList.mp (List.mem_of_find?_eq_some h), hneg, ?_⟩
    rintro rfl y hy hlt
    obtain rfl : gap? = some y := hy
    have hgap : (⟨some y, time?⟩ : Limits Float).toList.find? (fun e => decide (e.2 < 0)) =
        some (.gap, y) := List.find?_cons_of_pos (by simpa using hlt)
    exact nomatch hgap.symm.trans h
  · rintro ⟨hset, hneg, hfirst⟩
    cases limit with
    | gap =>
      obtain rfl : gap? = some x := hset
      exact List.find?_cons_of_pos (by simpa using hneg)
    | time =>
      obtain rfl : time? = some x := hset
      cases gap? with
      | none => exact List.find?_cons_of_pos (by simpa using hneg)
      | some y =>
        have hnonneg := hfirst rfl y rfl
        exact (List.find?_cons_of_neg (by simpa using hnonneg)).trans
          (List.find?_cons_of_pos (by simpa using hneg))

/-- A text that sets limits is read, unless one of them is out of range. -/
theorem read_of_document {text : String} {l : Limits Float} (h : Document text.toList l) :
    read text = match l.violation? with
      | some (limit, x) => .error (.outOfRange limit x)
      | none => .ok l := by
  unfold read check
  rw [readAny_eq_ok.mpr h]
  cases hviolation : l.violation? <;> simp [bind, Except.bind, pure, Except.pure, hviolation]

/-- A text that does not set limits cannot be read. -/
theorem exists_parseError {text : String} (h : ¬∃ l, Document text.toList l) :
    ∃ e, read text = .error e ∧ IsParseError e := by
  cases hany : readAny text with
  | error e => exact ⟨e, by rw [read, hany]; rfl, OnlyParseErrors.of_readAny text e hany⟩
  | ok l => exact (h ⟨l, readAny_eq_ok.mp hany⟩).elim

theorem read_eq_ok {text : String} {l : Limits Float} :
    read text = .ok l ↔
      Document text.toList l ∧ ∀ limit x, l.get? limit = some x → x.isFinite = true ∧ ¬x < 0 := by
  constructor
  · intro h
    by_cases hdocument : ∃ l, Document text.toList l
    · obtain ⟨l', hdocument⟩ := hdocument
      rw [read_of_document hdocument] at h
      split at h
      · exact nomatch h
      · next hnone =>
        obtain rfl := Except.ok.inj h
        exact ⟨hdocument, violation?_eq_none.mp hnone⟩
    · obtain ⟨e, he, -⟩ := exists_parseError hdocument
      exact nomatch he.symm.trans h
  · rintro ⟨hdocument, hrange⟩
    rw [read_of_document hdocument, violation?_eq_none.mpr hrange]

theorem read_eq_outOfRange {text : String} {limit : Limit} {x : Float} :
    read text = .error (.outOfRange limit x) ↔ ∃ l, Document text.toList l ∧ FirstNegative l limit x := by
  constructor
  · intro h
    by_cases hdocument : ∃ l, Document text.toList l
    · obtain ⟨l, hdocument⟩ := hdocument
      rw [read_of_document hdocument] at h
      split at h
      · next hviolation =>
        obtain ⟨rfl, rfl⟩ := LimitsError.outOfRange.inj (Except.error.inj h)
        exact ⟨l, hdocument, (violation?_eq_some fun _ _ => hdocument.isFinite).mp hviolation⟩
      · exact nomatch h
    · obtain ⟨e, he, hparse⟩ := exists_parseError hdocument
      rw [Except.error.inj (he.symm.trans h)] at hparse
      exact (not_isParseError_outOfRange limit x hparse).elim
  · rintro ⟨l, hdocument, hfirst⟩
    rw [read_of_document hdocument,
      (violation?_eq_some fun _ _ => hdocument.isFinite).mpr hfirst]

/-- **The texts that are accepted are exactly those that set limits which are finite and not below zero.** A
text that sets a limit below zero is refused for the first such limit, the gap before the time, and every
other text is refused because it cannot be read. -/
theorem read_exactly (text : String) :
    (∀ l, read text = .ok l ↔
      Document text.toList l ∧ ∀ limit x, l.get? limit = some x → x.isFinite = true ∧ ¬x < 0) ∧
    (∀ limit x, read text = .error (.outOfRange limit x) ↔
      ∃ l, Document text.toList l ∧ FirstNegative l limit x) ∧
    ((∃ e, read text = .error e ∧ IsParseError e) ↔ ¬∃ l, Document text.toList l) := by
  refine ⟨fun l => read_eq_ok, fun limit x => read_eq_outOfRange, ?_, exists_parseError⟩
  rintro ⟨e, he, hparse⟩ ⟨l, hdocument⟩
  rw [read_of_document hdocument] at he
  split at he
  · obtain rfl := Except.error.inj he
    exact not_isParseError_outOfRange _ _ hparse
  · exact nomatch he

-- the gap is named although it comes last, under an escaped name
example :
    (match read "\x7b\"time-limit-seconds\":-1, \"\\u0067ap-tolerance\":-2e0\x7d" with
      | .error (.outOfRange limit _) => some limit
      | _ => none) = some .gap := by
  decide +kernel

/-! ## Files -/

/-- What a file of limits holds, by what is in it: limits, or the reason why it holds none. -/
inductive Holds (path : String) : Except FileError ByteArray → Except LimitsError (Limits Float) → Prop
  | unreadable (cause : FileError) : Holds path (.error cause) (.error (.unreadable path cause))
  | notText {bytes : ByteArray} (h : String.fromUTF8? bytes = none) :
      Holds path (.ok bytes) (.error (.unreadable path .notUtf8))
  | notLimits {bytes : ByteArray} {text : String} (htext : String.fromUTF8? bytes = some text)
      (h : ¬∃ l, Document text.toList l) {e : LimitsError} (he : IsParseError e) :
      Holds path (.ok bytes) (.error e)
  | negative {bytes : ByteArray} {text : String} (htext : String.fromUTF8? bytes = some text)
      {l : Limits Float} (h : Document text.toList l) {limit : Limit} {x : Float}
      (hfirst : FirstNegative l limit x) : Holds path (.ok bytes) (.error (.outOfRange limit x))
  | limits {bytes : ByteArray} {text : String} (htext : String.fromUTF8? bytes = some text)
      {l : Limits Float} (h : Document text.toList l)
      (hrange : ∀ limit x, l.get? limit = some x → x.isFinite = true ∧ ¬x < 0) :
      Holds path (.ok bytes) (.ok l)

variable {path : String} {contents : Except FileError ByteArray}

theorem ofFile_of_text {bytes : ByteArray} {text : String} (htext : String.fromUTF8? bytes = some text) :
    ofFile path (.ok bytes) = read text := by
  rw [ofFile, textOf, htext]

/-- What is read from a file is what it holds. -/
theorem holds_ofFile (path : String) (contents : Except FileError ByteArray) :
    Holds path contents (ofFile path contents) := by
  cases contents with
  | error cause => exact .unreadable cause
  | ok bytes =>
  cases htext : String.fromUTF8? bytes with
  | none =>
    rw [ofFile, textOf, htext]
    exact .notText htext
  | some text =>
  rw [ofFile_of_text htext]
  by_cases hdocument : ∃ l, Document text.toList l
  · obtain ⟨l, hl⟩ := hdocument
    rw [read_of_document hl]
    cases hviolation : l.violation? with
    | none => exact .limits htext hl (violation?_eq_none.mp hviolation)
    | some violation => exact .negative htext hl ((violation?_eq_some fun _ _ => hl.isFinite).mp hviolation)
  · obtain ⟨e, he, hparse⟩ := exists_parseError hdocument
    rw [he]
    exact .notLimits htext hdocument hparse

/-- A file holds no other limits than those that are read from it. -/
theorem holds_ok_iff {l : Limits Float} : Holds path contents (.ok l) ↔ ofFile path contents = .ok l := by
  constructor
  · rintro ⟨⟩
    next htext h hrange => rw [ofFile_of_text htext, read_eq_ok.mpr ⟨h, hrange⟩]
  · intro h
    rw [← h]
    exact holds_ofFile path contents

end LinearProgram.Limits
