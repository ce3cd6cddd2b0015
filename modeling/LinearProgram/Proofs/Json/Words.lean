import Mathlib
import LinearProgram.Json.Scanner

/-!
# Blanks, words and strings of a JSON text

Between its quotes a string spells its characters one after the other. Each stands for itself, or is
written as a backslash and a letter, as one code unit in hexadecimal, or as two where one does not suffice.
The scanner reads exactly the texts that spell a string and gives the characters they spell
(`scanString_eq_ok`).
-/

namespace LinearProgram.Json

/-! ## Blanks and words -/

/-- A text of nothing but blanks. -/
def Blanks (cs : List Char) : Prop :=
  ∀ c ∈ cs, isBlank c = true

theorem isBlank_iff {c : Char} : isBlank c = true ↔ c = ' ' ∨ c = '\t' ∨ c = '\n' ∨ c = '\r' := by
  simp [isBlank, or_assoc]

theorem blanks_nil : Blanks [] :=
  nofun

theorem blanks_singleton {c : Char} (hc : isBlank c = true) : Blanks [c] :=
  List.forall_mem_singleton.mpr hc

theorem blanks_append {blanks blanks' : List Char} (h : Blanks blanks) (h' : Blanks blanks') :
    Blanks (blanks ++ blanks') :=
  List.forall_mem_append.mpr ⟨h, h'⟩

theorem skipBlanks_append {blanks : List Char} (h : Blanks blanks) (cs : List Char) :
    skipBlanks (blanks ++ cs) = skipBlanks cs :=
  List.dropWhile_append_of_pos h

theorem skipBlanks_cons {c : Char} (hc : isBlank c = false) (cs : List Char) :
    skipBlanks (c :: cs) = c :: cs :=
  List.dropWhile_cons_of_neg (by simp [hc])

theorem skipBlanks_append_cons {blanks : List Char} (h : Blanks blanks) {c : Char}
    (hc : isBlank c = false) (cs : List Char) : skipBlanks (blanks ++ c :: cs) = c :: cs := by
  rw [skipBlanks_append h, skipBlanks_cons hc]

/-- What is skipped is blank. -/
theorem exists_blanks {cs rest : List Char} (h : skipBlanks cs = rest) :
    ∃ blanks, Blanks blanks ∧ cs = blanks ++ rest :=
  ⟨cs.takeWhile isBlank, fun _ hc => List.mem_takeWhile_imp hc, by
    rw [← h]
    exact List.takeWhile_append_dropWhile.symm⟩

/-- A mark that is not blank is the next one after blanks. -/
theorem skipBlanks_eq_cons {cs rest : List Char} {c : Char} (hc : isBlank c = false) :
    skipBlanks cs = c :: rest ↔ ∃ blanks, Blanks blanks ∧ cs = blanks ++ c :: rest :=
  ⟨exists_blanks, by
    rintro ⟨blanks, hblanks, rfl⟩
    exact skipBlanks_append_cons hblanks hc rest⟩

theorem skipBlanks_eq_nil {cs : List Char} : skipBlanks cs = [] ↔ Blanks cs :=
  List.dropWhile_eq_nil_iff

/-- A word is read when it stands at the front. -/
theorem scanWord_eq_ok {word cs rest : List Char} : scanWord word cs = .ok rest ↔ cs = word ++ rest := by
  induction word generalizing cs with
  | nil => simp [scanWord]
  | cons w word ih =>
    cases cs with
    | nil => simp [scanWord]
    | cons c cs =>
      by_cases hc : w = c
      · simp [scanWord, hc, ih]
      · simp [scanWord, hc, Ne.symm hc]

/-! ## Spellings -/

/-- The number whose hexadecimal digits follow those of `value`. -/
def hexFrom? (value : ℕ) : List Char → Option ℕ
  | [] => some value
  | c :: cs => (hexValue? c).bind fun digit => hexFrom? (16 * value + digit) cs

/-- Four hexadecimal digits and the code unit they stand for. -/
structure IsUnit (digits : List Char) (unit : ℕ) : Prop where
  length_eq : digits.length = 4
  value_eq : hexFrom? 0 digits = some unit

/-- The code units that come first in a pair. -/
def IsLead (unit : ℕ) : Prop :=
  0xD800 ≤ unit ∧ unit ≤ 0xDBFF

/-- The code units that come second in a pair. -/
def IsTrail (unit : ℕ) : Prop :=
  0xDC00 ≤ unit ∧ unit ≤ 0xDFFF

/-- The ways to write a character in a string. -/
inductive Spells : List Char → Char → Prop where
  | itself {c : Char} : c ≠ '"' → c ≠ '\\' → 0x20 ≤ c.toNat → Spells [c] c
  | letter {c e : Char} : escaped? c = some e → Spells ['\\', c] e
  | unit {digits : List Char} {unit : ℕ} :
      IsUnit digits unit → ¬IsLead unit → ¬IsTrail unit → Spells ('\\' :: 'u' :: digits) (Char.ofNat unit)
  | pair {digits digits' : List Char} {lead trail : ℕ} :
      IsUnit digits lead → IsLead lead → IsUnit digits' trail → IsTrail trail →
      Spells ('\\' :: 'u' :: digits ++ '\\' :: 'u' :: digits')
        (Char.ofNat (0x10000 + (lead - 0xD800) * 0x400 + (trail - 0xDC00)))

/-- The ways to write the characters of a string one after the other. -/
inductive Spelled : List Char → List Char → Prop where
  | nil : Spelled [] []
  | cons {w cs s : List Char} {c : Char} : Spells w c → Spelled cs s → Spelled (w ++ cs) (c :: s)

/-! ## Steps of the scanner -/

/-- What a step completes comes before what is read from then on. -/
theorem scanStringFrom_cons {state next : StringState} {c : Char} {done? : Option Char}
    (hquote : state = .plain → c ≠ '"') (h : stringStep state c = .ok (done?, next)) (cs : List Char) :
    scanStringFrom state (c :: cs) =
      (scanStringFrom next cs).map fun r => (done?.toList ++ r.1, r.2) := by
  rw [scanStringFrom, h]
  · dsimp only
    cases scanStringFrom next cs <;> rfl
  · exact hquote

/-- A string that was read ends at a quote between characters, or goes on with a step. -/
theorem scanStringFrom_eq_ok {state : StringState} {cs s rest : List Char}
    (h : scanStringFrom state cs = .ok (s, rest)) :
    (state = .plain ∧ cs = '"' :: rest ∧ s = []) ∨
      ∃ c cs' done? next s', cs = c :: cs' ∧ (state = .plain → c ≠ '"') ∧
        stringStep state c = .ok (done?, next) ∧ scanStringFrom next cs' = .ok (s', rest) ∧
        s = done?.toList ++ s' := by
  cases cs with
  | nil => simp [scanStringFrom] at h
  | cons c cs =>
    by_cases hquote : state = .plain ∧ c = '"'
    · obtain ⟨rfl, rfl⟩ := hquote
      simp only [scanStringFrom, Except.ok.injEq, Prod.mk.injEq] at h
      exact .inl ⟨rfl, by rw [h.2], h.1.symm⟩
    · have hne : state = .plain → c ≠ '"' := fun hs hc => hquote ⟨hs, hc⟩
      cases hstep : stringStep state c with
      | error e =>
        rw [scanStringFrom, hstep] at h
        · exact nomatch h
        · exact hne
      | ok r =>
        rw [scanStringFrom_cons hne hstep] at h
        cases hnext : scanStringFrom r.2 cs with
        | error e => simp [hnext, Except.map] at h
        | ok r' =>
          simp only [hnext, Except.map, Except.ok.injEq, Prod.mk.injEq] at h
          exact .inr ⟨c, cs, r.1, r.2, r'.1, rfl, hne, hstep, by rw [hnext, ← h.2], h.1.symm⟩

/-! ## Code units -/

theorem codeUnit_none_eq_ok {unit : ℕ} {done? : Option Char} {next : StringState} :
    codeUnit none unit = .ok (done?, next) ↔
      ¬IsTrail unit ∧ (IsLead unit ∧ done? = none ∧ next = .afterLead unit ∨
        ¬IsLead unit ∧ done? = some (Char.ofNat unit) ∧ next = .plain) := by
  by_cases htrail : IsTrail unit
  · have hunit : codeUnit none unit = .error .loneSurrogate := if_pos htrail
    simp [hunit, htrail]
  · by_cases hlead : IsLead unit
    · have hunit : codeUnit none unit = .ok (none, .afterLead unit) :=
        (if_neg htrail).trans (if_pos hlead)
      simp [hunit, htrail, hlead, eq_comm]
    · have hunit : codeUnit none unit = .ok (some (Char.ofNat unit), .plain) :=
        (if_neg htrail).trans (if_neg hlead)
      simp [hunit, htrail, hlead, eq_comm]

theorem codeUnit_some_eq_ok {lead unit : ℕ} {done? : Option Char} {next : StringState} :
    codeUnit (some lead) unit = .ok (done?, next) ↔
      IsTrail unit ∧
        done? = some (Char.ofNat (0x10000 + (lead - 0xD800) * 0x400 + (unit - 0xDC00))) ∧
        next = .plain := by
  by_cases htrail : IsTrail unit
  · have hunit : codeUnit (some lead) unit =
        .ok (some (Char.ofNat (0x10000 + (lead - 0xD800) * 0x400 + (unit - 0xDC00))), .plain) :=
      if_pos htrail
    simp [hunit, htrail, eq_comm]
  · have hunit : codeUnit (some lead) unit = .error .loneSurrogate := if_neg htrail
    simp [hunit, htrail]

/-- Digits are taken one by one, and the last completes the code unit. -/
theorem scanStringFrom_hex_append {lead : Option ℕ} {digits : List Char} {value unit : ℕ}
    {done? : Option Char} {next : StringState} (hne : digits ≠ [])
    (hvalue : hexFrom? value digits = some unit) (hunit : codeUnit lead unit = .ok (done?, next))
    (cs : List Char) :
    scanStringFrom (.hex lead digits.length value) (digits ++ cs) =
      (scanStringFrom next cs).map fun r => (done?.toList ++ r.1, r.2) := by
  induction digits generalizing value with
  | nil => exact absurd rfl hne
  | cons c digits ih =>
    obtain ⟨digit, hdigit, hrest⟩ := Option.bind_eq_some_iff.mp hvalue
    cases digits with
    | nil =>
      have hlast : 16 * value + digit = unit := by simpa [hexFrom?] using hrest
      exact scanStringFrom_cons (by nofun) (by simpa [stringStep, hdigit, hlast] using hunit) cs
    | cons c' digits =>
      have hstep : stringStep (.hex lead (c :: c' :: digits).length value) c =
          .ok (none, .hex lead (c' :: digits).length (16 * value + digit)) := by
        simp [stringStep, hdigit]
      rw [List.cons_append, scanStringFrom_cons (by nofun) hstep, ih (List.cons_ne_nil _ _) hrest]
      cases scanStringFrom next cs <;> rfl

/-- Inside digits the scanner has as many to read as are owed. -/
theorem scanStringFrom_hex_eq_ok {lead : Option ℕ} {owed value : ℕ} {cs s rest : List Char}
    (howed : 0 < owed) (h : scanStringFrom (.hex lead owed value) cs = .ok (s, rest)) :
    ∃ digits unit done? next cs' s', digits.length = owed ∧ cs = digits ++ cs' ∧
      hexFrom? value digits = some unit ∧ codeUnit lead unit = .ok (done?, next) ∧
      scanStringFrom next cs' = .ok (s', rest) ∧ s = done?.toList ++ s' := by
  induction owed generalizing value cs s with
  | zero => exact absurd rfl howed.ne
  | succ owed ih =>
    obtain ⟨hplain, -⟩ | ⟨c, cs, done?, next, s', rfl, -, hstep, hrest, rfl⟩ := scanStringFrom_eq_ok h
    · exact nomatch hplain
    · cases hdigit : hexValue? c with
      | none => simp [stringStep, hdigit] at hstep
      | some digit =>
        cases owed with
        | zero =>
          refine ⟨[c], 16 * value + digit, done?, next, cs, s', rfl, rfl, by simp [hexFrom?, hdigit], ?_,
            hrest, rfl⟩
          simpa [stringStep, hdigit] using hstep
        | succ owed =>
          obtain ⟨rfl, rfl⟩ : done? = none ∧ next = .hex lead (owed + 1) (16 * value + digit) := by
            simpa [stringStep, hdigit, eq_comm] using hstep
          obtain ⟨digits, unit, done?, next, cs', s'', hlength, rfl, hvalue, hunit, hrest', rfl⟩ :=
            ih (Nat.succ_pos owed) hrest
          exact ⟨c :: digits, unit, done?, next, cs', s'', by simp [hlength], rfl,
            by simp [hexFrom?, hdigit, hvalue], hunit, hrest', rfl⟩

/-- After a backslash and a `u`. -/
theorem scanStringFrom_unit_append {lead : Option ℕ} {digits : List Char} {unit : ℕ}
    {done? : Option Char} {next : StringState} (hdigits : IsUnit digits unit)
    (hunit : codeUnit lead unit = .ok (done?, next)) (cs : List Char) :
    scanStringFrom (.escape lead) ('u' :: digits ++ cs) =
      (scanStringFrom next cs).map fun r => (done?.toList ++ r.1, r.2) := by
  have hne : digits ≠ [] := List.ne_nil_of_length_eq_add_one hdigits.length_eq
  have hstep : stringStep (.escape lead) 'u' = .ok (none, .hex lead digits.length 0) := by
    simp [stringStep, hdigits.length_eq]
  rw [List.cons_append, scanStringFrom_cons (by nofun) hstep,
    scanStringFrom_hex_append hne hdigits.value_eq hunit]
  cases scanStringFrom next cs <;> rfl

/-! ## Characters -/

/-- A spelled character is read as that character. -/
theorem Spells.scanStringFrom_append {w : List Char} {c : Char} (h : Spells w c) (cs : List Char) :
    scanStringFrom .plain (w ++ cs) = (scanStringFrom .plain cs).map fun r => (c :: r.1, r.2) := by
  have hback : stringStep .plain '\\' = .ok (none, .escape none) := rfl
  have hunit {digits : List Char} {unit : ℕ} {done? : Option Char} {next : StringState}
      (hdigits : IsUnit digits unit) (h : codeUnit none unit = .ok (done?, next)) (cs : List Char) :
      scanStringFrom .plain ('\\' :: 'u' :: digits ++ cs) =
        (scanStringFrom next cs).map fun r => (done?.toList ++ r.1, r.2) := by
    rw [List.cons_append, scanStringFrom_cons (fun _ => by decide) hback,
      scanStringFrom_unit_append hdigits h]
    cases scanStringFrom next cs <;> rfl
  cases h with
  | itself hquote hescape hcontrol =>
    have hstep : stringStep .plain c = .ok (some c, .plain) := by
      simp [stringStep, hescape, Nat.not_lt.mpr hcontrol]
    exact scanStringFrom_cons (fun _ => hquote) hstep cs
  | @letter e _ he =>
    have hletter : e ≠ 'u' := by
      rintro rfl
      exact nomatch he
    have hstep : stringStep (.escape none) e = .ok (some c, .plain) := by
      simp [stringStep, hletter, he]
    rw [List.cons_append, scanStringFrom_cons (fun _ => by decide) hback, List.singleton_append,
      scanStringFrom_cons (by nofun) hstep]
    cases scanStringFrom .plain cs <;> rfl
  | unit hdigits hlead htrail =>
    exact hunit hdigits (codeUnit_none_eq_ok.mpr ⟨htrail, .inr ⟨hlead, rfl, rfl⟩⟩) cs
  | @pair digits digits' lead trail hdigits hlead hdigits' htrail =>
    have hnot : ¬IsTrail lead := fun h => by
      unfold IsTrail at h
      unfold IsLead at hlead
      omega
    have hback' : stringStep (.afterLead lead) '\\' = .ok (none, .escape (some lead)) := rfl
    rw [List.append_assoc, hunit hdigits (codeUnit_none_eq_ok.mpr ⟨hnot, .inl ⟨hlead, rfl, rfl⟩⟩),
      List.cons_append, scanStringFrom_cons (by nofun) hback',
      scanStringFrom_unit_append hdigits' (codeUnit_some_eq_ok.mpr ⟨htrail, rfl, rfl⟩)]
    cases scanStringFrom .plain cs <;> rfl

/-- After a backslash and a `u` the scanner reads four digits. -/
theorem scanStringFrom_u_eq_ok {lead : Option ℕ} {cs s rest : List Char}
    (h : scanStringFrom (.hex lead 4 0) cs = .ok (s, rest)) :
    ∃ digits unit done? next cs' s', IsUnit digits unit ∧ cs = digits ++ cs' ∧
      codeUnit lead unit = .ok (done?, next) ∧ scanStringFrom next cs' = .ok (s', rest) ∧
      s = done?.toList ++ s' := by
  obtain ⟨digits, unit, done?, next, cs', s', hlength, hcs, hvalue, hunit, hrest, hs⟩ :=
    scanStringFrom_hex_eq_ok (by decide) h
  exact ⟨digits, unit, done?, next, cs', s', ⟨hlength, hvalue⟩, hcs, hunit, hrest, hs⟩

/-- After the first code unit of a pair the scanner reads the second. -/
theorem scanStringFrom_afterLead_eq_ok {lead : ℕ} {cs s rest : List Char}
    (h : scanStringFrom (.afterLead lead) cs = .ok (s, rest)) :
    ∃ digits trail cs' s', IsUnit digits trail ∧ IsTrail trail ∧ cs = '\\' :: 'u' :: digits ++ cs' ∧
      scanStringFrom .plain cs' = .ok (s', rest) ∧
      s = Char.ofNat (0x10000 + (lead - 0xD800) * 0x400 + (trail - 0xDC00)) :: s' := by
  obtain ⟨hplain, -⟩ | ⟨c, cs, done?, next, s₁, rfl, -, hstep, hrest, rfl⟩ := scanStringFrom_eq_ok h
  · exact nomatch hplain
  obtain ⟨rfl, rfl, rfl⟩ : c = '\\' ∧ done? = none ∧ next = .escape (some lead) := by
    by_cases hc : c = '\\' <;> simp_all [stringStep, eq_comm]
  obtain ⟨hplain, -⟩ | ⟨c, cs, done?, next, s₂, rfl, -, hstep, hrest, rfl⟩ := scanStringFrom_eq_ok hrest
  · exact nomatch hplain
  obtain ⟨rfl, rfl, rfl⟩ : c = 'u' ∧ done? = none ∧ next = .hex (some lead) 4 0 := by
    by_cases hc : c = 'u' <;> simp_all [stringStep, eq_comm]
  obtain ⟨digits, trail, done?, next, cs, s₃, hdigits, rfl, hunit, hrest, rfl⟩ :=
    scanStringFrom_u_eq_ok hrest
  obtain ⟨htrail, rfl, rfl⟩ := codeUnit_some_eq_ok.mp hunit
  exact ⟨digits, trail, cs, s₃, hdigits, htrail, rfl, hrest, rfl⟩

/-- Between characters a string ends, or the next character is spelled. -/
theorem scanStringFrom_plain_eq_ok {cs s rest : List Char}
    (h : scanStringFrom .plain cs = .ok (s, rest)) :
    (cs = '"' :: rest ∧ s = []) ∨
      ∃ w c cs' s', Spells w c ∧ cs = w ++ cs' ∧ scanStringFrom .plain cs' = .ok (s', rest) ∧
        s = c :: s' := by
  obtain ⟨-, hend⟩ | ⟨c, cs, done?, next, s₁, rfl, hquote, hstep, hrest, rfl⟩ := scanStringFrom_eq_ok h
  · exact .inl hend
  right
  by_cases hback : c = '\\'
  · subst hback
    obtain ⟨rfl, rfl⟩ : done? = none ∧ next = .escape none := by simpa [stringStep, eq_comm] using hstep
    obtain ⟨hplain, -⟩ | ⟨c, cs, done?, next, s₂, rfl, -, hstep, hrest, rfl⟩ := scanStringFrom_eq_ok hrest
    · exact nomatch hplain
    by_cases hu : c = 'u'
    · subst hu
      obtain ⟨rfl, rfl⟩ : done? = none ∧ next = .hex none 4 0 := by
        simpa [stringStep, eq_comm] using hstep
      obtain ⟨digits, unit, done?, next, cs, s₃, hdigits, rfl, hunit, hrest, rfl⟩ :=
        scanStringFrom_u_eq_ok hrest
      obtain ⟨htrail, ⟨hlead, rfl, rfl⟩ | ⟨hlead, rfl, rfl⟩⟩ := codeUnit_none_eq_ok.mp hunit
      · obtain ⟨digits', trail, cs, s₄, hdigits', htrail', rfl, hrest', rfl⟩ :=
          scanStringFrom_afterLead_eq_ok hrest
        refine ⟨_, _, cs, s₄, .pair hdigits hlead hdigits' htrail', ?_, hrest', rfl⟩
        simp only [List.cons_append, List.append_assoc]
      · exact ⟨_, _, cs, s₃, .unit hdigits hlead htrail, rfl, hrest, rfl⟩
    · cases he : escaped? c with
      | none => simp [stringStep, hu, he] at hstep
      | some e =>
        obtain ⟨rfl, rfl⟩ : done? = some e ∧ next = .plain := by
          simpa [stringStep, hu, he, eq_comm] using hstep
        exact ⟨_, e, cs, s₂, .letter he, rfl, hrest, rfl⟩
  · by_cases hcontrol : c.toNat < 0x20
    · simp [stringStep, hback, hcontrol] at hstep
    · obtain ⟨rfl, rfl⟩ : done? = some c ∧ next = .plain := by
        simpa [stringStep, hback, hcontrol, eq_comm] using hstep
      exact ⟨_, c, cs, s₁, .itself (hquote rfl) hback (Nat.not_lt.mp hcontrol), rfl, hrest, rfl⟩

/-! ## Strings -/

theorem Spells.ne_nil {w : List Char} {c : Char} (h : Spells w c) : w ≠ [] := by
  cases h <;> simp

/-- A spelled string is read up to its closing quote. -/
theorem Spelled.scanStringFrom_append {body s : List Char} (h : Spelled body s) (rest : List Char) :
    scanStringFrom .plain (body ++ '"' :: rest) = .ok (s, rest) := by
  induction h with
  | nil => rfl
  | cons hchar _ ih => rw [List.append_assoc, hchar.scanStringFrom_append, ih]; rfl

/-- What is read as a string spells it. -/
theorem exists_spelled {cs s rest : List Char} (h : scanStringFrom .plain cs = .ok (s, rest)) :
    ∃ body, cs = body ++ '"' :: rest ∧ Spelled body s := by
  -- every character read leaves a shorter text
  induction hn : cs.length using Nat.strong_induction_on generalizing cs s with
  | _ n ih =>
    obtain ⟨rfl, rfl⟩ | ⟨w, c, cs, s, hchar, rfl, hrest, rfl⟩ := scanStringFrom_plain_eq_ok h
    · exact ⟨[], rfl, .nil⟩
    · have hpos := List.length_pos_of_ne_nil hchar.ne_nil
      rw [List.length_append] at hn
      obtain ⟨body, rfl, hbody⟩ := ih cs.length (by omega) hrest rfl
      exact ⟨w ++ body, by rw [List.append_assoc], .cons hchar hbody⟩

/-- The scanner reads exactly the strings that are spelled up to a closing quote. -/
theorem scanString_eq_ok {cs rest : List Char} {s : String} :
    scanString cs = .ok (s, rest) ↔ ∃ body, cs = body ++ '"' :: rest ∧ Spelled body s.toList := by
  constructor
  · intro h
    unfold scanString at h
    split at h
    · exact nomatch h
    · next chars _ hchars =>
      obtain ⟨rfl, rfl⟩ := Prod.mk.inj (Except.ok.inj h)
      obtain ⟨body, hcs, hbody⟩ := exists_spelled hchars
      exact ⟨body, hcs, by rwa [String.toList_ofList]⟩
  · rintro ⟨body, rfl, hbody⟩
    rw [scanString, hbody.scanStringFrom_append]
    simp only [String.ofList_toList]

theorem scanString_append {body : List Char} {s : String} (h : Spelled body s.toList) (rest : List Char) :
    scanString (body ++ '"' :: rest) = .ok (s, rest) :=
  scanString_eq_ok.mpr ⟨body, rfl, h⟩

end LinearProgram.Json
