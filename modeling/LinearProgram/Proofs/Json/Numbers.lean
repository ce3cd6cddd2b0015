import Mathlib
import LinearProgram.Json.Scanner
import LinearProgram.Proofs.Double.Range

/-!
# The numbers of a JSON text

A number is a whole part without needless zeros, a part after a point and a power of ten, of which the last
two may be missing. The scanner reads a number up to a character that cannot belong to it (`scan_text`), and
whatever it reads is such a number and has its value (`exists_numeral_of_scan`). The value is never infinite:
what is out of the range of doubles is refused (`isFinite_value`).
-/

namespace LinearProgram.Json.Number

open Decimal (splitSign splitDigits ofDigits)

/-! ## Digits -/

/-- Decimal digits, at least one. -/
structure IsDigits (cs : List Char) : Prop where
  ne_nil : cs ≠ []
  isDigit : ∀ c ∈ cs, c.isDigit = true

/-- A text that does not go on with a digit. -/
def NoDigit (rest : List Char) : Prop :=
  ∀ c ∈ rest.head?, c.isDigit = false

theorem splitDigits_append {digits rest : List Char} (hdigits : ∀ c ∈ digits, c.isDigit = true)
    (hrest : NoDigit rest) : splitDigits (digits ++ rest) = (digits, rest) := by
  have hstop : rest.takeWhile Char.isDigit = [] ∧ rest.dropWhile Char.isDigit = rest := by
    cases rest with
    | nil => exact ⟨rfl, rfl⟩
    | cons c rest => simp [hrest c rfl]
  rw [splitDigits, List.takeWhile_append_of_pos hdigits, List.dropWhile_append_of_pos hdigits, hstop.1,
    hstop.2, List.append_nil]

/-- Digits are cut off as long as there are any. -/
theorem splitDigits_eq {cs digits rest : List Char} (h : splitDigits cs = (digits, rest)) :
    cs = digits ++ rest ∧ (∀ c ∈ digits, c.isDigit = true) ∧ NoDigit rest := by
  obtain ⟨rfl, rfl⟩ := Prod.mk.inj h
  refine ⟨List.takeWhile_append_dropWhile.symm, fun c hc => List.mem_takeWhile_imp hc, fun c hc => ?_⟩
  have hhead := List.head?_dropWhile_not Char.isDigit cs
  rw [Option.mem_def.mp hc] at hhead
  simpa using hhead

/-! ## Powers of ten -/

/-- A power of ten as it is written: a letter, a sign and digits. -/
structure Power where
  letter : Char
  sign : List Char
  digits : List Char

namespace Power

/-- The letter is `e` of either case, and the sign may be missing. -/
structure Proper (p : Power) : Prop where
  letter : p.letter = 'e' ∨ p.letter = 'E'
  sign : p.sign = [] ∨ p.sign = ['+'] ∨ p.sign = ['-']
  digits : IsDigits p.digits

def text (p : Power) : List Char :=
  p.letter :: (p.sign ++ p.digits)

/-- The exponent, unless it is too large to be held, and whether it is negative. -/
def value (p : Power) : Option ℤ × Bool :=
  let negative := decide (p.sign = ['-'])
  let n := ofDigits p.digits
  (if maxExponent < n then none else some (if negative then -(n : ℤ) else n), negative)

theorem splitSign_append {p : Power} (hp : p.Proper) (rest : List Char) :
    splitSign (p.sign ++ p.digits ++ rest) = (decide (p.sign = ['-']), p.digits ++ rest) := by
  obtain ⟨letter, sign, digits⟩ := p
  obtain ⟨-, rfl | rfl | rfl, hne, hdigits⟩ := hp
  · cases digits with
    | nil => exact absurd rfl hne
    | cons c digits =>
      have hdigit : c.isDigit = true := hdigits c List.mem_cons_self
      have hminus : c ≠ '-' := by rintro rfl; exact absurd hdigit (by decide)
      have hplus : c ≠ '+' := by rintro rfl; exact absurd hdigit (by decide)
      simp [splitSign, hminus, hplus]
  · rfl
  · rfl

/-- A power is read up to a character that is no digit. -/
theorem scanExponent_text {p : Power} (hp : p.Proper) {rest : List Char} (hrest : NoDigit rest) :
    scanExponent (p.text ++ rest) = .ok (p.value, rest) := by
  rw [text, List.cons_append]
  simp only [scanExponent, if_pos hp.letter, splitSign_append hp rest,
    splitDigits_append hp.digits.isDigit hrest, List.isEmpty_iff, hp.digits.ne_nil, if_false, value]
  split <;> rfl

end Power

/-! ## Numerals -/

/-- A number as it is written, without its sign. -/
structure Numeral where
  whole : List Char
  part? : Option (List Char)
  power? : Option Power

/-- A text that does not go on as a number does. -/
def Stops (rest : List Char) : Prop :=
  ∀ c ∈ rest.head?, c.isDigit = false ∧ isRealMark c = false

theorem Stops.noDigit {rest : List Char} (h : Stops rest) : NoDigit rest :=
  fun c hc => (h c hc).1

namespace Numeral

/-- A whole part that begins with a zero is a zero. -/
structure Proper (u : Numeral) : Prop where
  whole : IsDigits u.whole
  no_zero : ∀ c cs, u.whole ≠ '0' :: c :: cs
  part : ∀ digits ∈ u.part?, IsDigits digits
  power : ∀ p ∈ u.power?, p.Proper

/-- The point and what follows it, up to the power. -/
def partText (u : Numeral) : List Char :=
  u.part?.elim [] ('.' :: ·)

def powerText (u : Numeral) : List Char :=
  u.power?.elim [] Power.text

def text (u : Numeral) : List Char :=
  u.whole ++ (u.partText ++ u.powerText)

/-- The exponent of the power, which is zero when there is none. -/
def exponent (u : Numeral) : Option ℤ × Bool :=
  u.power?.elim (some 0, false) Power.value

/-- The double with the given significand so far, and the given number of digits dropped from it. -/
def real (u : Numeral) (significand dropped : ℕ) : Except SyntaxError Float :=
  let (significand', taken, _) := takeDigits significand 0 (u.part?.getD [])
  combine significand' (dropped - taken) u.exponent

/-- The value of a numeral. Without point and power it is an integer, if its digits fit and it does not come
out as minus zero or beyond the least integer. -/
def value (negative : Bool) (u : Numeral) : Except SyntaxError Number :=
  let (significand, _, dropped) := takeDigits 0 0 u.whole
  let sign := fun (x : Float) => Number.real (if negative then -x else x)
  if dropped = [] ∧ u.part? = none ∧ u.power? = none then
    if !negative then .ok (.integer significand)
    else if significand = 0 ∨ maxNegative < significand then .ok (sign (Float.ofNat significand))
    else .ok (.integer (-(significand : ℤ)))
  else (u.real significand dropped.length).map sign

end Numeral

/-! ## Numerals that are read -/

theorem scanExponent_of_stops {rest : List Char} (hrest : Stops rest) :
    scanExponent rest = .ok ((some 0, false), rest) := by
  cases rest with
  | nil => rfl
  | cons c rest =>
    have hmark : ¬(c = 'e' ∨ c = 'E') := by
      have h := (hrest c rfl).2
      simp only [isRealMark, Bool.or_eq_false_iff, decide_eq_false_iff_not] at h
      exact fun he => he.elim h.1.2 h.2
    rw [scanExponent, if_neg hmark]

namespace Numeral

/-- A numeral begins with a digit. -/
theorem Proper.exists_cons {u : Numeral} (hu : u.Proper) :
    ∃ c tail, u.text = c :: tail ∧ c.isDigit = true := by
  obtain ⟨c, whole, hwhole⟩ := List.exists_cons_of_ne_nil hu.whole.ne_nil
  exact ⟨c, _, by rw [text, hwhole, List.cons_append], hu.whole.isDigit c (by simp [hwhole])⟩

theorem eq_none_of_partText {u : Numeral} (h : u.partText = []) : u.part? = none := by
  cases hpart : u.part? with
  | none => rfl
  | some digits => simp [partText, hpart] at h

theorem eq_none_of_powerText {u : Numeral} (h : u.powerText = []) : u.power? = none := by
  cases hpower : u.power? with
  | none => rfl
  | some p => simp [powerText, hpower, Power.text] at h

variable {u : Numeral} (hu : u.Proper) {rest : List Char} (hrest : Stops rest)
include hu hrest

theorem scanExponent_powerText :
    scanExponent (u.powerText ++ rest) = .ok (u.exponent, rest) := by
  cases hpower : u.power? with
  | none => simpa [powerText, exponent, hpower] using scanExponent_of_stops hrest
  | some p =>
    simpa [powerText, exponent, hpower] using
      Power.scanExponent_text (hu.power p hpower) hrest.noDigit

/-- A power begins with a letter. -/
theorem head_powerText {c : Char} (hc : c ∈ (u.powerText ++ rest).head?) :
    c.isDigit = false ∧ c ≠ '.' ∧ (isRealMark c = true ↔ u.power? ≠ none) := by
  cases hpower : u.power? with
  | none =>
    have hstop := hrest c (by simpa [powerText, hpower] using hc)
    refine ⟨hstop.1, ?_, by simp [hstop.2]⟩
    rintro rfl
    exact absurd hstop.2 (by decide)
  | some p =>
    obtain rfl : p.letter = c := by simpa [powerText, hpower, Power.text] using hc
    rcases (hu.power p hpower).letter with hletter | hletter <;> simp [hletter] <;> decide

theorem scanReal_text (significand dropped : ℕ) :
    scanReal significand dropped (u.partText ++ (u.powerText ++ rest)) =
      (u.real significand dropped).map fun x => (x, rest) := by
  cases hpart : u.part? with
  | none =>
    have htext : u.partText = [] := by simp [partText, hpart]
    rw [htext, List.nil_append, scanReal]
    · simp only [scanExponent_powerText hu hrest, real, hpart, Option.getD_none, takeDigits,
        Nat.cast_zero, sub_zero]
      cases combine significand dropped u.exponent <;> rfl
    · intro after hafter
      exact (head_powerText hu hrest (c := '.') (by rw [hafter]; rfl)).2.1 rfl
  | some digits =>
    have hdigits := hu.part digits hpart
    have htext : u.partText = '.' :: digits := by simp [partText, hpart]
    have hno : NoDigit (u.powerText ++ rest) := fun c hc => (head_powerText hu hrest hc).1
    rw [htext, List.cons_append]
    simp only [scanReal, splitDigits_append hdigits.isDigit hno, List.isEmpty_iff, hdigits.ne_nil, if_false,
      scanExponent_powerText hu hrest, real, hpart, Option.getD_some]
    cases combine _ _ u.exponent <;> rfl

/-- What follows the whole part goes on as a number does when there is a point or a power. -/
theorem head_partText {c : Char} (hc : c ∈ (u.partText ++ (u.powerText ++ rest)).head?) :
    c.isDigit = false ∧ (isRealMark c = true ↔ u.part? ≠ none ∨ u.power? ≠ none) := by
  cases hpart : u.part? with
  | none =>
    obtain ⟨hdigit, -, hmark⟩ := head_powerText hu hrest (c := c) (by simpa [partText, hpart] using hc)
    exact ⟨hdigit, by simpa using hmark⟩
  | some digits =>
    obtain rfl : '.' = c := by simpa [partText, hpart] using hc
    exact ⟨by decide, by simp; decide⟩

/-- **A numeral is read** up to a character that cannot belong to it. -/
theorem scan_text (negative : Bool) :
    scan negative (u.text ++ rest) = (u.value negative).map fun n => (n, rest) := by
  have hno : NoDigit (u.partText ++ (u.powerText ++ rest)) := fun c hc => (head_partText hu hrest hc).1
  have hsplit : splitDigits (u.text ++ rest) = (u.whole, u.partText ++ (u.powerText ++ rest)) := by
    rw [text, List.append_assoc, List.append_assoc, splitDigits_append hu.whole.isDigit hno]
  have hmark : (u.partText ++ (u.powerText ++ rest)).head?.any isRealMark = true ↔
      ¬(u.part? = none ∧ u.power? = none) := by
    cases hhead : (u.partText ++ (u.powerText ++ rest)).head? with
    | none =>
      obtain ⟨hpart, hpower, -⟩ : u.partText = [] ∧ u.powerText = [] ∧ rest = [] := by
        simpa using hhead
      simp [eq_none_of_partText hpart, eq_none_of_powerText hpower]
    | some c =>
      rw [Option.any_some, (head_partText hu hrest hhead).2]
      tauto
  have hreal (significand dropped : ℕ) := scanReal_text hu hrest significand dropped
  unfold scan value
  simp only [hsplit]
  generalize takeDigits 0 0 u.whole = taken
  obtain ⟨significand, taken, dropped⟩ := taken
  split
  · next hnil => exact absurd hnil hu.whole.ne_nil
  · next c cs hzero => exact absurd hzero (hu.no_zero c cs)
  · have hhere : (dropped.isEmpty && !(u.partText ++ (u.powerText ++ rest)).head?.any isRealMark) = true ↔
        dropped = [] ∧ u.part? = none ∧ u.power? = none := by
      rw [Bool.and_eq_true, List.isEmpty_iff, Bool.not_eq_true', ← Bool.not_eq_true, hmark]
      tauto
    by_cases hint : dropped = [] ∧ u.part? = none ∧ u.power? = none
    · have htail : u.partText ++ (u.powerText ++ rest) = rest := by
        simp [partText, powerText, hint.2.1, hint.2.2]
      rw [if_pos (hhere.mpr hint), if_pos hint, htail]
      split_ifs <;> rfl
    · rw [if_neg (mt hhere.mp hint), if_neg hint, hreal]
      cases u.real significand dropped.length <;> rfl

end Numeral

/-! ## What is read -/

/-- A sign that was cut off. -/
theorem splitSign_eq {cs tail : List Char} {negative : Bool} (h : splitSign cs = (negative, tail)) :
    ∃ sign, (sign = [] ∨ sign = ['+'] ∨ sign = ['-']) ∧ cs = sign ++ tail ∧
      negative = decide (sign = ['-']) := by
  unfold splitSign at h
  split at h
  · obtain ⟨rfl, rfl⟩ := Prod.mk.inj h
    exact ⟨['-'], by simp, rfl, rfl⟩
  · obtain ⟨rfl, rfl⟩ := Prod.mk.inj h
    exact ⟨['+'], by simp, rfl, rfl⟩
  · obtain ⟨rfl, rfl⟩ := Prod.mk.inj h
    exact ⟨[], by simp, rfl, rfl⟩

/-- What is read as an exponent is a power, or nothing at all where there is no letter. -/
theorem exists_power {cs rest : List Char} {e : Option ℤ × Bool} (h : scanExponent cs = .ok (e, rest)) :
    ∃ power? : Option Power, (∀ p ∈ power?, p.Proper) ∧ cs = power?.elim [] Power.text ++ rest ∧
      e = power?.elim (some 0, false) Power.value ∧
      (power? = none → ∀ c ∈ rest.head?, ¬(c = 'e' ∨ c = 'E')) := by
  cases cs with
  | nil =>
    obtain ⟨rfl, rfl⟩ := Prod.mk.inj (Except.ok.inj h)
    exact ⟨none, nofun, rfl, rfl, nofun⟩
  | cons c cs =>
    by_cases hletter : c = 'e' ∨ c = 'E'
    · cases hsign : splitSign cs with
      | mk negative tail =>
        cases hdigits : splitDigits tail with
        | mk digits after =>
          have hne : digits ≠ [] := by
            rintro rfl
            simp [scanExponent, hletter, hsign, hdigits] at h
          obtain ⟨sign, hsign', rfl, -⟩ := splitSign_eq hsign
          obtain ⟨rfl, hall, hno⟩ := splitDigits_eq hdigits
          have hproper : Power.Proper ⟨c, sign, digits⟩ := ⟨hletter, hsign', ⟨hne, hall⟩⟩
          have htext : c :: (sign ++ (digits ++ after)) = Power.text ⟨c, sign, digits⟩ ++ after := by
            simp [Power.text]
          rw [htext, Power.scanExponent_text hproper hno] at h
          obtain ⟨rfl, rfl⟩ := Prod.mk.inj (Except.ok.inj h)
          exact ⟨some ⟨c, sign, digits⟩, by rintro p ⟨⟩; exact hproper, htext, rfl, nofun⟩
    · rw [scanExponent, if_neg hletter] at h
      obtain ⟨rfl, rfl⟩ := Prod.mk.inj (Except.ok.inj h)
      exact ⟨none, nofun, rfl, rfl, by rintro - _ ⟨⟩; exact hletter⟩

/-- What is read after the last digit of a real number is its power. -/
theorem exists_power_of_combine {significand : ℕ} {exponent : ℤ} {cs rest : List Char} {x : Float}
    (h : (match scanExponent cs with
      | .error e => .error e
      | .ok (e, rest) => match combine significand exponent e with
        | .error err => .error err
        | .ok x => .ok (x, rest) : Scan Float) = .ok (x, rest)) :
    ∃ power? : Option Power, (∀ p ∈ power?, p.Proper) ∧ cs = power?.elim [] Power.text ++ rest ∧
      combine significand exponent (power?.elim (some 0, false) Power.value) = .ok x ∧
      (power? = none → ∀ c ∈ rest.head?, ¬(c = 'e' ∨ c = 'E')) := by
  split at h
  · exact nomatch h
  · next e rest' hexponent =>
    split at h
    · exact nomatch h
    · next x' hcombine =>
      obtain ⟨rfl, rfl⟩ := Prod.mk.inj (Except.ok.inj h)
      obtain ⟨power?, hpower, rfl, rfl, hletter⟩ := exists_power hexponent
      exact ⟨power?, hpower, rfl, hcombine, hletter⟩

/-- What is read after the whole part is a point with digits and a power, each of which may be missing, but
not both where the text goes on as a real number does. -/
theorem exists_tail_of_scanReal {significand dropped : ℕ} {cs rest : List Char} {x : Float}
    (h : scanReal significand dropped cs = .ok (x, rest)) (whole : List Char) :
    ∃ u : Numeral, u.whole = whole ∧ (∀ digits ∈ u.part?, IsDigits digits) ∧
      (∀ p ∈ u.power?, p.Proper) ∧ cs = u.partText ++ (u.powerText ++ rest) ∧
      u.real significand dropped = .ok x ∧
      (u.part? = none → u.power? = none → ∀ c ∈ rest.head?, isRealMark c = false) := by
  unfold scanReal at h
  split at h
  · next after =>
    cases hdigits : splitDigits after with
    | mk digits tail =>
      obtain ⟨rfl, hall, -⟩ := splitDigits_eq hdigits
      simp only [hdigits] at h
      split at h
      · exact nomatch h
      · next hne =>
        obtain ⟨power?, hpower, rfl, hcombine, -⟩ := exists_power_of_combine h
        refine ⟨⟨whole, some digits, power?⟩, rfl, ?_, hpower, rfl, hcombine, nofun⟩
        rintro _ ⟨⟩
        exact ⟨by simpa using hne, hall⟩
  · next hpoint =>
    obtain ⟨power?, hpower, rfl, hcombine, hletter⟩ := exists_power_of_combine h
    refine ⟨⟨whole, none, power?⟩, rfl, nofun, hpower, rfl, ?_, fun _ hnone c hc => ?_⟩
    · simpa only [Numeral.real, Numeral.exponent, Option.getD_none, takeDigits, Nat.cast_zero, sub_zero]
        using hcombine
    · obtain rfl : power? = none := hnone
      obtain ⟨tail, rfl⟩ : ∃ tail, rest = c :: tail := List.head?_eq_some_iff.mp hc
      have hmark := hletter rfl c rfl
      have hdot : c ≠ '.' := by rintro rfl; exact hpoint tail rfl
      simpa [isRealMark, hdot] using hmark

/-- **What is read as a number** is a numeral with that value. -/
theorem exists_numeral_of_scan {negative : Bool} {cs rest : List Char} {n : Number}
    (h : scan negative cs = .ok (n, rest)) :
    ∃ u : Numeral, u.Proper ∧ cs = u.text ++ rest ∧ u.value negative = .ok n := by
  cases hsplit : splitDigits cs with
  | mk whole tail =>
    obtain ⟨rfl, hall, -⟩ := splitDigits_eq hsplit
    unfold scan at h
    simp only [hsplit] at h
    cases htaken : takeDigits 0 0 whole with
    | mk significand taken =>
      obtain ⟨taken, dropped⟩ := taken
      simp only [htaken] at h
      split at h
      · exact nomatch h
      · exact nomatch h
      · next hne hzero =>
        have hwhole : IsDigits whole := ⟨hne, hall⟩
        split at h
        · next hint =>
          have hdropped : dropped = [] := List.isEmpty_iff.mp (Bool.and_eq_true_iff.mp hint).1
          obtain ⟨hvalue, rfl⟩ : Numeral.value negative ⟨whole, none, none⟩ = .ok n ∧ tail = rest := by
            simp only [Numeral.value, htaken, hdropped, and_self, if_true]
            split_ifs at h ⊢ <;> simpa using h
          refine ⟨⟨whole, none, none⟩, ⟨hwhole, hzero, nofun, nofun⟩, ?_, hvalue⟩
          simp [Numeral.text, Numeral.partText, Numeral.powerText]
        · next hreal =>
          split at h
          · exact nomatch h
          · next x rest' hx =>
            obtain ⟨u, rfl, hpart, hpower, rfl, hreal', hmark⟩ := exists_tail_of_scanReal hx whole
            obtain ⟨rfl, rfl⟩ := Prod.mk.inj (Except.ok.inj h)
            refine ⟨u, ⟨hwhole, hzero, hpart, hpower⟩, by simp [Numeral.text], ?_⟩
            have hnot : ¬(dropped = [] ∧ u.part? = none ∧ u.power? = none) := by
              rintro ⟨rfl, hpart?, hpower?⟩
              have hnone : rest'.head?.any isRealMark = false := by
                cases hhead : rest'.head? with
                | none => rfl
                | some c => exact hmark hpart? hpower? c hhead
              simp [Numeral.partText, Numeral.powerText, hpart?, hpower?, hnone] at hreal
            simp only [Numeral.value, htaken, if_neg hnot, hreal', Except.map]

/-! ## Values are finite -/

open Double (Bounded AtLeast)

theorem takeDigits_le {significand taken : ℕ} {cs : List Char} (h : significand ≤ maxSignificand) :
    (takeDigits significand taken cs).1 ≤ maxSignificand := by
  induction cs generalizing significand taken with
  | nil => exact h
  | cons c cs ih =>
    rw [takeDigits]
    split
    · next hnext => exact ih hnext
    · exact h

theorem bounded_ofNat {significand : ℕ} (h : significand ≤ maxSignificand) :
    Bounded 388 (Float.ofNat significand) :=
  Double.bounded_ofNat (Nat.lt_of_le_of_lt h (by decide))

/-- The powers of ten are neither small nor infinite. -/
theorem atLeast_powerOfTen : ∀ n ≤ maxPower, AtLeast (-52) (powerOfTen n) = true := by
  -- a table of 309 doubles, each of which is computed
  decide +kernel

theorem atLeast_maxPower : AtLeast 971 (powerOfTen maxPower) = true := by
  decide +kernel

/-- Division by powers of ten does not leave the range. -/
theorem bounded_scaleDown {x : Float} (hx : Bounded 388 x) (n : ℕ) : Bounded 754 (scaleDown x n) := by
  fun_induction scaleDown x n with
  | case1 x n hn =>
    exact Double.bounded_div hx (atLeast_powerOfTen n hn) (by decide)
  | case2 x n hn hzero => exact hx.mono (by decide)
  | case3 x n hn hzero ih =>
    exact ih ((Double.bounded_div hx atLeast_maxPower (by decide)).mono (by decide))

theorem isFinite_scale {significand : ℕ} (h : significand ≤ maxSignificand) {exponent : ℤ} {x : Float}
    (hx : scale significand exponent = .ok x) : x.isFinite = true := by
  have hbounded := bounded_ofNat h
  unfold scale at hx
  simp only at hx
  split_ifs at hx with hneg hpower hinf hzero
  · obtain rfl := Except.ok.inj hx
    exact (bounded_scaleDown hbounded _).isFinite
  · obtain rfl := Except.ok.inj hx
    obtain ⟨bound, hpower'⟩ := Double.exists_bounded (atLeast_powerOfTen _ hpower)
    exact Double.isFinite_mul hbounded hpower' (by simpa using hinf)
  · obtain rfl := Except.ok.inj hx
    exact hbounded.isFinite

theorem isFinite_combine {significand : ℕ} (h : significand ≤ maxSignificand) {exponent : ℤ}
    {e : Option ℤ × Bool} {x : Float} (hx : combine significand exponent e = .ok x) :
    x.isFinite = true := by
  unfold combine at hx
  split at hx
  · exact isFinite_scale h hx
  · split_ifs at hx
    obtain rfl := Except.ok.inj hx
    decide +kernel

theorem isFinite_sign {x : Float} (hx : x.isFinite = true) (negative : Bool) :
    (if negative then -x else x).isFinite = true := by
  split
  · exact Double.isFinite_neg hx
  · exact hx

/-- **The value of a numeral is finite.** -/
theorem isFinite_value {negative : Bool} {u : Numeral} {n : Number} (h : u.value negative = .ok n) :
    n.toFloat.isFinite = true := by
  have hle : (takeDigits 0 0 u.whole).1 ≤ maxSignificand := takeDigits_le (Nat.zero_le _)
  unfold Numeral.value at h
  generalize takeDigits 0 0 u.whole = taken at h hle
  obtain ⟨significand, taken, dropped⟩ := taken
  have hfinite : (Float.ofNat significand).isFinite = true := (bounded_ofNat hle).isFinite
  simp only at h
  split at h
  · split at h
    · obtain rfl := Except.ok.inj h
      have hnonneg : ¬((significand : ℤ) < 0) := by omega
      simpa [toFloat, hnonneg] using hfinite
    · split at h
      · obtain rfl := Except.ok.inj h
        exact isFinite_sign hfinite negative
      · next hnegative =>
        obtain rfl := Except.ok.inj h
        have hneg : -(significand : ℤ) < 0 := by omega
        rw [toFloat, if_pos hneg, Int.natAbs_neg, Int.natAbs_natCast]
        exact Double.isFinite_neg hfinite
  · cases hx : u.real significand dropped.length with
    | error e =>
      rw [hx] at h
      exact nomatch h
    | ok x =>
      rw [hx] at h
      obtain rfl := Except.ok.inj h
      exact isFinite_sign (isFinite_combine (takeDigits_le hle) hx) negative

end LinearProgram.Json.Number
