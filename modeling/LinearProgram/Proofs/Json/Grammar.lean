import Mathlib
import LinearProgram.Json.Value
import LinearProgram.Proofs.Json.Words
import LinearProgram.Proofs.Json.Numbers

/-!
# The texts of a JSON value

A JSON text has marks, strings and numbers, with blanks between them wherever one likes. `Denotes` says which
texts stand for a value. The reader goes through a text from left to right and gives back the value of every
such text (`read?_of_element`), so that a text stands for one value at most. Neither knows `null`, `true` or
`false`, which no value here is written as.
-/

namespace LinearProgram.Json

open Number (Numeral Stops)

/-! ## The grammar -/

/-- A number with or without a minus sign, and the double that it is read as. -/
inductive NumberText : List Char → Float → Prop where
  | positive {u : Numeral} {n : Number} :
      u.Proper → u.value false = .ok n → NumberText u.text n.toFloat
  | negative {u : Numeral} {n : Number} :
      u.Proper → u.value true = .ok n → NumberText ('-' :: u.text) n.toFloat

mutual
/-- The texts of a value, from its first character to its last. -/
inductive Denotes : List Char → Json → Prop where
  | number {text : List Char} {x : Float} : NumberText text x → Denotes text (.number x)
  | string {body : List Char} {s : String} :
      Spelled body s.toList → Denotes ('"' :: (body ++ ['"'])) (.string s)
  | emptyList {blanks : List Char} : Blanks blanks → Denotes ('[' :: (blanks ++ [']'])) (.list [])
  | list {text : List Char} {items : List Json} :
      Items text items → Denotes ('[' :: (text ++ [']'])) (.list items)
  | emptyObject {blanks : List Char} :
      Blanks blanks → Denotes ('\x7b' :: (blanks ++ ['\x7d'])) (.object [])
  | object {text : List Char} {members : List (String × Json)} :
      Members text members → Denotes ('\x7b' :: (text ++ ['\x7d'])) (.object members)

/-- A value between blanks. -/
inductive Element : List Char → Json → Prop where
  | mk {before text after : List Char} {value : Json} :
      Blanks before → Denotes text value → Blanks after → Element (before ++ (text ++ after)) value

/-- Values with commas between them. -/
inductive Items : List Char → List Json → Prop where
  | one {text : List Char} {item : Json} : Element text item → Items text [item]
  | more {text texts : List Char} {item : Json} {items : List Json} :
      Element text item → Items texts items → Items (text ++ ',' :: texts) (item :: items)

/-- A key as a string between blanks, a colon and a value. -/
inductive Member : List Char → String × Json → Prop where
  | mk {before name between text : List Char} {key : String} {value : Json} :
      Blanks before → Spelled name key.toList → Blanks between → Element text value →
      Member (before ++ '"' :: (name ++ '"' :: (between ++ ':' :: text))) (key, value)

/-- Members with commas between them. -/
inductive Members : List Char → List (String × Json) → Prop where
  | one {text : List Char} {member : String × Json} : Member text member → Members text [member]
  | more {text texts : List Char} {member : String × Json} {members : List (String × Json)} :
      Member text member → Members texts members → Members (text ++ ',' :: texts) (member :: members)
end

theorem Denotes.element {text : List Char} {value : Json} (h : Denotes text value) : Element text value := by
  simpa using Element.mk blanks_nil h blanks_nil

/-! ## The reader -/

/-- The number at the front of a text. -/
def number? (cs : List Char) : Option (Float × List Char) :=
  let scanned := match cs with
    | '-' :: digits => Number.scan true digits
    | _ => Number.scan false cs
  scanned.toOption.map fun r => (r.1.toFloat, r.2)

/-- The key at the front of a text, up to its colon. -/
def key? (cs : List Char) : Option (String × List Char) :=
  match skipBlanks cs with
  | '"' :: rest => do
    let (key, rest) ← (scanString rest).toOption
    match skipBlanks rest with
    | ':' :: rest => return (key, rest)
    | _ => none
  | _ => none

mutual
/-- The value at the front of a text. Every value, every further item and every further member takes one
from the first argument. -/
def value? : ℕ → List Char → Option (Json × List Char)
  | 0, _ => none
  | n + 1, cs =>
    match skipBlanks cs with
    | '"' :: rest => (scanString rest).toOption.map fun r => (.string r.1, r.2)
    | '[' :: rest =>
      match skipBlanks rest with
      | ']' :: rest => some (.list [], rest)
      | _ => (items? n rest).map fun r => (.list r.1, r.2)
    | '\x7b' :: rest =>
      match skipBlanks rest with
      | '\x7d' :: rest => some (.object [], rest)
      | _ => (members? n rest).map fun r => (.object r.1, r.2)
    | rest => (number? rest).map fun r => (.number r.1, r.2)

/-- The items up to the end of a list that is not empty. -/
def items? : ℕ → List Char → Option (List Json × List Char)
  | 0, _ => none
  | n + 1, cs => do
    let (item, rest) ← value? n cs
    match skipBlanks rest with
    | ']' :: rest => return ([item], rest)
    | ',' :: rest => (items? n rest).map fun r => (item :: r.1, r.2)
    | _ => none

/-- The members up to the end of an object that is not empty. -/
def members? : ℕ → List Char → Option (List (String × Json) × List Char)
  | 0, _ => none
  | n + 1, cs => do
    let (key, rest) ← key? cs
    let (value, rest) ← value? n rest
    match skipBlanks rest with
    | '\x7d' :: rest => return ([(key, value)], rest)
    | ',' :: rest => (members? n rest).map fun r => ((key, value) :: r.1, r.2)
    | _ => none
end

/-- The value that a text stands for, if it stands for one. -/
def read? (text : String) : Option Json := do
  let (value, rest) ← value? (2 * text.toList.length) text.toList
  if skipBlanks rest = [] then return value else none

/-! ## What may follow a number -/

/-- A mark that ends a value, and what follows it. -/
theorem Number.stops_cons {c : Char} (hc : c = ',' ∨ c = '\x7d' ∨ c = ']') (rest : List Char) :
    Stops (c :: rest) := by
  rintro _ ⟨⟩
  rcases hc with rfl | rfl | rfl <;> decide

theorem Number.stops_append {blanks rest : List Char} (hblanks : Blanks blanks) (hrest : Stops rest) :
    Stops (blanks ++ rest) := by
  cases blanks with
  | nil => exact hrest
  | cons b blanks =>
    rintro _ ⟨⟩
    rcases isBlank_iff.mp (hblanks b List.mem_cons_self) with rfl | rfl | rfl | rfl <;> decide

/-! ## Numbers -/

open Number (stops_cons stops_append)

/-- A number begins with a minus sign or a digit. -/
theorem NumberText.exists_cons {text : List Char} {x : Float} (h : NumberText text x) :
    ∃ c tail, text = c :: tail ∧ (c = '-' ∨ c.isDigit = true) := by
  cases h with
  | positive hu =>
    obtain ⟨c, tail, htext, hdigit⟩ := hu.exists_cons
    exact ⟨c, tail, htext, .inr hdigit⟩
  | negative => exact ⟨_, _, rfl, .inl rfl⟩

/-- A number is read up to what cannot belong to it. -/
theorem NumberText.number?_append {text rest : List Char} {x : Float} (h : NumberText text x)
    (hrest : Stops rest) : number? (text ++ rest) = some (x, rest) := by
  cases h with
  | @positive u n hu hvalue =>
    have hscan := Numeral.scan_text hu hrest false
    rw [hvalue] at hscan
    obtain ⟨c, tail, htext, hdigit⟩ := hu.exists_cons
    have hminus : c ≠ '-' := by
      rintro rfl
      exact absurd hdigit (by decide)
    rw [htext, List.cons_append] at hscan ⊢
    unfold number?
    split
    · next heq => exact absurd (List.cons.inj heq).1 hminus
    · rw [hscan]
      rfl
  | @negative u n hu hvalue =>
    have hscan := Numeral.scan_text hu hrest true
    rw [hvalue] at hscan
    rw [List.cons_append, number?, hscan]
    rfl

/-- What is read as a number is one. -/
theorem exists_numberText {cs rest : List Char} {x : Float} (h : number? cs = some (x, rest)) :
    ∃ text, NumberText text x ∧ cs = text ++ rest := by
  have hscanned {negative : Bool} {digits : List Char}
      (h : (Number.scan negative digits).toOption.map (fun r => (r.1.toFloat, r.2)) = some (x, rest)) :
      ∃ u : Numeral, ∃ n, u.Proper ∧ u.value negative = .ok n ∧ digits = u.text ++ rest ∧
        n.toFloat = x := by
    cases hscan : Number.scan negative digits with
    | error e => simp [hscan, Except.toOption] at h
    | ok r =>
      obtain ⟨n, tail⟩ := r
      simp only [hscan, Except.toOption, Option.map_some, Option.some.injEq, Prod.mk.injEq] at h
      obtain ⟨hx, rfl⟩ := h
      obtain ⟨u, hu, htext, hvalue⟩ := Number.exists_numeral_of_scan hscan
      exact ⟨u, n, hu, hvalue, htext, hx⟩
  unfold number? at h
  split at h
  · obtain ⟨u, n, hu, hvalue, rfl, rfl⟩ := hscanned h
    exact ⟨_, .negative hu hvalue, rfl⟩
  · obtain ⟨u, n, hu, hvalue, rfl, rfl⟩ := hscanned h
    exact ⟨_, .positive hu hvalue, rfl⟩

/-! ## Texts that are read -/

/-- A value begins with a character that is neither a blank nor the end of a list. -/
theorem Denotes.exists_cons {text : List Char} {value : Json} (h : Denotes text value) :
    ∃ c tail, text = c :: tail ∧ isBlank c = false ∧ c ≠ ']' := by
  cases h with
  | number hx =>
    obtain ⟨c, tail, rfl, hc⟩ := hx.exists_cons
    refine ⟨c, tail, rfl, ?_⟩
    rcases hc with rfl | hdigit
    · decide
    · refine ⟨?_, by rintro rfl; exact absurd hdigit (by decide)⟩
      by_contra hblank
      rcases isBlank_iff.mp (by simpa using hblank) with rfl | rfl | rfl | rfl <;>
        exact absurd hdigit (by decide)
  | string => exact ⟨_, _, rfl, by decide, by decide⟩
  | emptyList => exact ⟨_, _, rfl, by decide, by decide⟩
  | list => exact ⟨_, _, rfl, by decide, by decide⟩
  | emptyObject => exact ⟨_, _, rfl, by decide, by decide⟩
  | object => exact ⟨_, _, rfl, by decide, by decide⟩

/-- Items do not begin with the end of the list. -/
theorem Items.skipBlanks_append {text : List Char} {items : List Json} (h : Items text items)
    (rest : List Char) : ∃ c tail, skipBlanks (text ++ rest) = c :: tail ∧ c ≠ ']' := by
  have helement {text : List Char} {item : Json} (h : Element text item) (rest : List Char) :
      ∃ c tail, skipBlanks (text ++ rest) = c :: tail ∧ c ≠ ']' := by
    obtain ⟨hbefore, htext, -⟩ := h
    obtain ⟨c, tail, rfl, hblank, hc⟩ := htext.exists_cons
    simp only [List.append_assoc, List.cons_append, skipBlanks_append_cons hbefore hblank]
    exact ⟨c, _, rfl, hc⟩
  cases h with
  | one h => exact helement h rest
  | more h _ =>
    rw [List.append_assoc]
    exact helement h _

/-- Members begin with a quote. -/
theorem Members.skipBlanks_append {text : List Char} {members : List (String × Json)}
    (h : Members text members) (rest : List Char) : ∃ tail, skipBlanks (text ++ rest) = '"' :: tail := by
  have hmember {text : List Char} {member : String × Json} (h : Member text member) (rest : List Char) :
      ∃ tail, skipBlanks (text ++ rest) = '"' :: tail := by
    obtain ⟨hbefore, -, -, -⟩ := h
    rw [List.append_assoc, List.cons_append, skipBlanks_append_cons hbefore (by decide)]
    exact ⟨_, rfl⟩
  cases h with
  | one h => exact hmember h rest
  | more h _ =>
    rw [List.append_assoc]
    exact hmember h _

/-- A key is read up to its colon. -/
theorem key?_append {before name between : List Char} {key : String} (hbefore : Blanks before)
    (hname : Spelled name key.toList) (hbetween : Blanks between) (rest : List Char) :
    key? (before ++ '"' :: (name ++ '"' :: (between ++ ':' :: rest))) = some (key, rest) := by
  rw [key?, skipBlanks_append_cons hbefore (by decide)]
  simp only [scanString_append hname, Except.toOption, Option.bind_eq_bind, Option.bind_some,
    skipBlanks_append_cons hbetween (c := ':') (by decide)]
  rfl

variable {n : ℕ}

/-- Every text of a value is read that is no longer than `n / 2`. -/
def ReadsValues (n : ℕ) : Prop :=
  ∀ {text : List Char} {value : Json}, Denotes text value → 2 * text.length ≤ n →
    ∀ {before rest : List Char}, Blanks before → Stops rest →
      value? n (before ++ (text ++ rest)) = some (value, rest)

/-- All items are read whose text is shorter than `n / 2`. -/
def ReadsItems (n : ℕ) : Prop :=
  ∀ {text : List Char} {items : List Json}, Items text items → 2 * text.length < n →
    ∀ rest, items? n (text ++ ']' :: rest) = some (items, rest)

/-- All members are read whose text is shorter than `n / 2`. -/
def ReadsMembers (n : ℕ) : Prop :=
  ∀ {text : List Char} {members : List (String × Json)}, Members text members → 2 * text.length < n →
    ∀ rest, members? n (text ++ '\x7d' :: rest) = some (members, rest)

theorem readsValues_succ (hitems : ReadsItems n) (hmembers : ReadsMembers n) : ReadsValues (n + 1) := by
  intro text value h hlength before rest hbefore hrest
  cases h with
  | number hx =>
    have hread := hx.number?_append hrest
    obtain ⟨c, tail, rfl, hblank, -⟩ := Denotes.exists_cons (.number hx)
    obtain ⟨c, tail, heq, hc⟩ := hx.exists_cons
    obtain ⟨rfl, rfl⟩ := List.cons.inj heq
    rw [value?, List.cons_append, skipBlanks_append_cons hbefore hblank]
    rw [List.cons_append] at hread
    obtain ⟨hstring, hlist, hobject⟩ : c ≠ '"' ∧ c ≠ '[' ∧ c ≠ '\x7b' := by
      refine ⟨?_, ?_, ?_⟩ <;> (rintro rfl; exact absurd hc (by decide))
    split
    · next heq => exact absurd (List.cons.inj heq).1 hstring
    · next heq => exact absurd (List.cons.inj heq).1 hlist
    · next heq => exact absurd (List.cons.inj heq).1 hobject
    · rw [hread]
      rfl
  | string hs =>
    rw [value?, List.cons_append, List.append_assoc, skipBlanks_append_cons hbefore (by decide)]
    simp only [List.singleton_append, scanString_append hs]
    rfl
  | emptyList hblanks =>
    rw [value?, List.cons_append, List.append_assoc, skipBlanks_append_cons hbefore (by decide)]
    simp only [List.singleton_append, skipBlanks_append_cons hblanks (c := ']') (by decide)]
  | @list text items hi =>
    rw [List.length_cons, List.length_append] at hlength
    have hread := hitems hi (by omega) rest
    obtain ⟨c, tail, hskip, hc⟩ := hi.skipBlanks_append (']' :: rest)
    rw [value?, List.cons_append, List.append_assoc, skipBlanks_append_cons hbefore (by decide)]
    simp only [List.singleton_append, hskip]
    split
    · next heq => exact absurd (List.cons.inj heq).1 hc
    · rw [hread]
      rfl
  | emptyObject hblanks =>
    rw [value?, List.cons_append, List.append_assoc, skipBlanks_append_cons hbefore (by decide)]
    simp only [List.singleton_append, skipBlanks_append_cons hblanks (c := '\x7d') (by decide)]
  | @object text members hm =>
    rw [List.length_cons, List.length_append] at hlength
    have hread := hmembers hm (by omega) rest
    obtain ⟨tail, hskip⟩ := hm.skipBlanks_append ('\x7d' :: rest)
    rw [value?, List.cons_append, List.append_assoc, skipBlanks_append_cons hbefore (by decide)]
    simp only [List.singleton_append, hskip, hread]
    rfl

/-- A value between blanks is read, and the blanks after it are left. -/
theorem ReadsValues.element (h : ReadsValues n) {text : List Char} {value : Json}
    (helement : Element text value) (hlength : 2 * text.length ≤ n) :
    ∃ after, Blanks after ∧ ∀ {rest}, Stops rest → value? n (text ++ rest) = some (value, after ++ rest) := by
  obtain ⟨hbefore, htext, hafter⟩ := helement
  simp only [List.length_append] at hlength
  refine ⟨_, hafter, fun {rest} hrest => ?_⟩
  rw [List.append_assoc, List.append_assoc]
  exact h htext (by omega) hbefore (stops_append hafter hrest)

theorem readsItems_succ (hvalues : ReadsValues n) (hitems : ReadsItems n) : ReadsItems (n + 1) := by
  intro text items h hlength rest
  cases h with
  | one hitem =>
    obtain ⟨after, hafter, hread⟩ := hvalues.element hitem (by omega)
    rw [items?, hread (stops_cons (by decide) rest)]
    simp only [Option.bind_eq_bind, Option.bind_some, skipBlanks_append_cons hafter (c := ']') (by decide)]
    rfl
  | @more text texts item items hitem hmore =>
    rw [List.length_append, List.length_cons] at hlength
    obtain ⟨after, hafter, hread⟩ := hvalues.element hitem (by omega)
    rw [items?, List.append_assoc, List.cons_append, hread (stops_cons (by decide) _)]
    simp only [Option.bind_eq_bind, Option.bind_some, skipBlanks_append_cons hafter (c := ',') (by decide),
      hitems hmore (by omega)]
    rfl

theorem readsMembers_succ (hvalues : ReadsValues n) (hmembers : ReadsMembers n) :
    ReadsMembers (n + 1) := by
  intro text members h hlength rest
  cases h with
  | one hmember =>
    obtain ⟨hbefore, hname, hbetween, hvalue⟩ := hmember
    simp only [List.length_append, List.length_cons] at hlength
    obtain ⟨after, hafter, hread⟩ := hvalues.element hvalue (by omega)
    have hstops : Stops ('\x7d' :: rest) := stops_cons (by decide) rest
    simp only [List.append_assoc, List.cons_append]
    rw [members?, key?_append hbefore hname hbetween]
    simp only [Option.bind_eq_bind, Option.bind_some, hread hstops,
      skipBlanks_append_cons hafter (c := '\x7d') (by decide)]
    rfl
  | @more text texts member members hmember hmore =>
    obtain ⟨hbefore, hname, hbetween, hvalue⟩ := hmember
    simp only [List.length_append, List.length_cons] at hlength
    obtain ⟨after, hafter, hread⟩ := hvalues.element hvalue (by omega)
    have hstops : Stops (',' :: (texts ++ '\x7d' :: rest)) := stops_cons (by decide) _
    simp only [List.append_assoc, List.cons_append]
    rw [members?, key?_append hbefore hname hbetween]
    simp only [Option.bind_eq_bind, Option.bind_some, hread hstops,
      skipBlanks_append_cons hafter (c := ',') (by decide), hmembers hmore (by omega)]
    rfl

theorem reads (n : ℕ) : ReadsValues n ∧ ReadsItems n ∧ ReadsMembers n := by
  induction n with
  | zero =>
    refine ⟨fun h hlength => ?_, fun _ hlength => absurd hlength (by omega),
      fun _ hlength => absurd hlength (by omega)⟩
    obtain ⟨c, tail, rfl, -⟩ := h.exists_cons
    simp at hlength
  | succ n ih =>
    obtain ⟨hvalues, hitems, hmembers⟩ := ih
    exact ⟨readsValues_succ hitems hmembers, readsItems_succ hvalues hitems,
      readsMembers_succ hvalues hmembers⟩

/-- **A text of a value is read** as that value, whatever blanks are around it. -/
theorem read?_of_element {text : String} {value : Json} (h : Element text.toList value) :
    read? text = some value := by
  obtain ⟨after, hafter, hread⟩ := ReadsValues.element (reads (2 * text.toList.length)).1 h le_rfl
  have hvalue : value? (2 * text.toList.length) text.toList = some (value, after) := by
    simpa using @hread [] nofun
  rw [read?, hvalue]
  simp [skipBlanks_eq_nil.mpr hafter]

end LinearProgram.Json
