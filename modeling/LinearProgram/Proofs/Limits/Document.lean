import Mathlib
import LinearProgram.Limits.Reader
import LinearProgram.Proofs.Json.Grammar

/-!
# Texts that set limits

A text sets limits when it is a JSON object whose members name limits, none of them twice, or a JSON list of
two values, where a value is a number or `null`. The reader gives the limits that are set in exactly these
texts (`readAny_eq_ok`), whatever the numbers are.
-/

namespace LinearProgram.Limits

open Json (Blanks Spelled SyntaxError skipBlanks isBlank blanks_append skipBlanks_append_cons exists_blanks
  scanWord_eq_ok)
open Json.Number (Numeral Stops stops_cons stops_append)

/-! ## The grammar -/

/-- The text of a value: `null`, or a number with or without a minus sign. -/
inductive Item : List Char → Option Float → Prop where
  | null : Item ['n', 'u', 'l', 'l'] none
  | positive {u : Numeral} {n : Json.Number} :
      u.Proper → u.value false = .ok n → Item u.text (some n.toFloat)
  | negative {u : Numeral} {n : Json.Number} :
      u.Proper → u.value true = .ok n → Item ('-' :: u.text) (some n.toFloat)

/-- A value between blanks. -/
inductive Element : List Char → Option Float → Prop where
  | mk {before item after : List Char} {value? : Option Float} :
      Blanks before → Item item value? → Blanks after → Element (before ++ (item ++ after)) value?

/-- The name of a limit as a string between blanks, a colon and a value. -/
inductive Member : List Char → Limit × Option Float → Prop where
  | mk {before name between element : List Char} {limit : Limit} {value? : Option Float} :
      Blanks before → Spelled name limit.key.toList → Blanks between → Element element value? →
      Member (before ++ '"' :: (name ++ '"' :: (between ++ ':' :: element))) (limit, value?)

/-- Members with commas between them. -/
inductive Members : List Char → List (Limit × Option Float) → Prop where
  | one {text : List Char} {entry : Limit × Option Float} : Member text entry → Members text [entry]
  | more {text texts : List Char} {entry : Limit × Option Float} {entries : List (Limit × Option Float)} :
      Member text entry → Members texts entries → Members (text ++ ',' :: texts) (entry :: entries)

/-- What stands between the braces of an object. -/
def Inner (text : List Char) (entries : List (Limit × Option Float)) : Prop :=
  Blanks text ∧ entries = [] ∨ Members text entries

/-- An object or a list between blanks, and the limits that it sets. In an object a limit is set when it has a
member with a number. -/
inductive Document : List Char → Limits Float → Prop where
  | object {before inner after : List Char} {entries : List (Limit × Option Float)} {l : Limits Float} :
      Blanks before → Inner inner entries → Blanks after → (entries.map Prod.fst).Nodup →
      (∀ limit x, l.get? limit = some x ↔ (limit, some x) ∈ entries) →
      Document (before ++ '\x7b' :: (inner ++ '\x7d' :: after)) l
  | list {before gap time after : List Char} {gap? time? : Option Float} :
      Blanks before → Element gap gap? → Element time time? → Blanks after →
      Document (before ++ '[' :: (gap ++ ',' :: (time ++ ']' :: after))) ⟨gap?, time?⟩

/-! ## Values -/

@[simp]
theorem lift_eq_ok {α : Type} {result : Except SyntaxError α} {a : α} :
    lift result = .ok a ↔ result = .ok a := by
  cases result <;> simp [lift]

/-- Steps that follow each other succeed when each of them does. -/
theorem bind_eq_ok {ε α β : Type} {x : Except ε α} {f : α → Except ε β} {b : β} :
    x >>= f = .ok b ↔ ∃ a, x = .ok a ∧ f a = .ok b := by
  cases x <;> simp [bind, Except.bind]

/-- The first character of a value tells it from a mark. -/
theorem Item.exists_cons {item : List Char} {value? : Option Float} (h : Item item value?) :
    ∃ c tail, item = c :: tail ∧ (c = 'n' ∨ c = '-' ∨ c.isDigit = true) := by
  cases h with
  | null => exact ⟨_, _, rfl, .inl rfl⟩
  | positive hu =>
    obtain ⟨c, tail, htext, hdigit⟩ := hu.exists_cons
    exact ⟨c, tail, htext, .inr (.inr hdigit)⟩
  | negative => exact ⟨_, _, rfl, .inr (.inl rfl)⟩

/-- A value does not begin with a blank or a mark. -/
theorem Item.exists_cons_not {item : List Char} {value? : Option Float} (h : Item item value?) :
    ∃ c tail, item = c :: tail ∧ isBlank c = false ∧ c ≠ ',' ∧ c ≠ ']' := by
  obtain ⟨c, tail, rfl, hc⟩ := h.exists_cons
  refine ⟨c, tail, rfl, ?_⟩
  rcases hc with rfl | rfl | hdigit
  · decide
  · decide
  · refine ⟨?_, ?_, ?_⟩
    · by_contra hblank
      rcases Json.isBlank_iff.mp (by simpa using hblank) with rfl | rfl | rfl | rfl <;>
        exact absurd hdigit (by decide)
    · rintro rfl
      exact absurd hdigit (by decide)
    · rintro rfl
      exact absurd hdigit (by decide)

theorem readNumber_eq_ok {negative : Bool} {cs rest : List Char} {value? : Option Float} :
    readNumber negative cs = .ok (value?, rest) ↔
      ∃ n, Json.Number.scan negative cs = .ok (n, rest) ∧ value? = some n.toFloat := by
  simp only [readNumber, bind_eq_ok, lift_eq_ok, pure, Except.pure, Except.ok.injEq, Prod.mk.injEq,
    Prod.exists, exists_eq_right_right, @eq_comm _ value?]

theorem refuse_ne_ok {α : Type} {expected : Expected} {cs : List Char} {a : α} :
    refuse expected cs ≠ .ok a := by
  unfold refuse
  cases lift (found cs) <;> exact nofun

/-- A value is read up to what cannot belong to it. -/
theorem Item.readValue_append {item rest blanks : List Char} {value? : Option Float}
    (h : Item item value?) (hblanks : Blanks blanks) (hrest : Stops rest) :
    readValue (blanks ++ (item ++ rest)) = .ok (value?, rest) := by
  obtain ⟨c, tail, hitem, hc, -⟩ := h.exists_cons_not
  have hskip : skipBlanks (blanks ++ (item ++ rest)) = item ++ rest := by
    rw [hitem, List.cons_append, skipBlanks_append_cons hblanks hc]
  unfold readValue
  rw [hskip]
  cases h with
  | null =>
    have hword : Json.scanWord "ull".toList ('u' :: 'l' :: 'l' :: rest) = .ok rest :=
      scanWord_eq_ok.mpr rfl
    exact bind_eq_ok.mpr ⟨rest, lift_eq_ok.mpr hword, rfl⟩
  | positive hu hvalue =>
    have hscan := Numeral.scan_text hu hrest false
    rw [hvalue] at hscan
    obtain ⟨c, tail, htext, hdigit⟩ := hu.exists_cons
    rw [htext, List.cons_append] at hscan ⊢
    split
    · next hnil => exact nomatch hnil
    · next heq => exact absurd (List.cons.inj heq).1 (by rintro rfl; exact absurd hdigit (by decide))
    · next heq => exact absurd (List.cons.inj heq).1 (by rintro rfl; exact absurd hdigit (by decide))
    · next heq =>
      obtain ⟨rfl, rfl⟩ := List.cons.inj heq
      rw [if_pos hdigit]
      exact readNumber_eq_ok.mpr ⟨_, hscan, rfl⟩
  | negative hu hvalue =>
    have hscan := Numeral.scan_text hu hrest true
    rw [hvalue] at hscan
    exact readNumber_eq_ok.mpr ⟨_, hscan, rfl⟩

/-- What is read as a value is one. -/
theorem exists_item {cs rest : List Char} {value? : Option Float} (h : readValue cs = .ok (value?, rest)) :
    ∃ blanks item, Blanks blanks ∧ Item item value? ∧ cs = blanks ++ (item ++ rest) := by
  unfold readValue at h
  split at h
  · exact nomatch h
  · next tail hskip =>
    obtain ⟨blanks, hblanks, rfl⟩ := exists_blanks hskip
    obtain ⟨rest', hword, hrest⟩ := bind_eq_ok.mp h
    obtain ⟨rfl, rfl⟩ := Prod.mk.inj (Except.ok.inj hrest)
    exact ⟨blanks, _, hblanks, .null, by rw [scanWord_eq_ok.mp (lift_eq_ok.mp hword)]; rfl⟩
  · next tail hskip =>
    obtain ⟨blanks, hblanks, rfl⟩ := exists_blanks hskip
    obtain ⟨n, hscan, rfl⟩ := readNumber_eq_ok.mp h
    obtain ⟨u, hu, rfl, hvalue⟩ := Json.Number.exists_numeral_of_scan hscan
    exact ⟨blanks, _, hblanks, .negative hu hvalue, rfl⟩
  · next c tail _ _ hskip =>
    split at h
    · obtain ⟨blanks, hblanks, rfl⟩ := exists_blanks hskip
      obtain ⟨n, hscan, rfl⟩ := readNumber_eq_ok.mp h
      obtain ⟨u, hu, htext, hvalue⟩ := Json.Number.exists_numeral_of_scan hscan
      exact ⟨blanks, _, hblanks, .positive hu hvalue, by rw [htext]⟩
    · exact absurd h refuse_ne_ok

/-! ## Objects -/

/-- What stands before the next member: nothing before the first, and a comma before any other. -/
def Lead (first : Bool) (lead : List Char) : Prop :=
  if first then lead = [] else ∃ blanks, Blanks blanks ∧ lead = blanks ++ [',']

theorem nextKey_end {blanks : List Char} (hblanks : Blanks blanks) (first : Bool) (rest : List Char) :
    nextKey first (blanks ++ '\x7d' :: rest) = .ok (none, rest) := by
  rw [nextKey, skipBlanks_append_cons hblanks (by decide)]
  rfl

theorem nextKey_append {first : Bool} {lead blanks name : List Char} {key : String}
    (hlead : Lead first lead) (hblanks : Blanks blanks) (hname : Spelled name key.toList)
    (rest : List Char) :
    nextKey first (lead ++ (blanks ++ '"' :: (name ++ '"' :: rest))) = .ok (some key, rest) := by
  have hread : readKey ('"' :: (name ++ '"' :: rest)) = .ok (some key, rest) := by
    rw [readKey, Json.scanString_append hname]
    rfl
  have hskip := skipBlanks_append_cons hblanks (c := '"') (by decide) (name ++ '"' :: rest)
  cases first with
  | true =>
    obtain rfl : lead = [] := hlead
    rw [List.nil_append, nextKey, hskip]
    exact hread
  | false =>
    obtain ⟨before, hbefore, rfl⟩ : ∃ before, Blanks before ∧ lead = before ++ [','] := hlead
    rw [List.append_assoc, List.singleton_append, nextKey, skipBlanks_append_cons hbefore (by decide)]
    simp only [Bool.false_eq_true, if_false, hskip]
    exact hread

theorem readKey_eq_ok {cs rest : List Char} {key? : Option String} :
    readKey cs = .ok (key?, rest) ↔
      ∃ key name, key? = some key ∧ Spelled name key.toList ∧ cs = '"' :: (name ++ '"' :: rest) := by
  constructor
  · intro h
    unfold readKey at h
    split at h
    · next tail =>
      obtain ⟨r, hscan, hr⟩ := bind_eq_ok.mp h
      obtain ⟨rfl, rfl⟩ := Prod.mk.inj (Except.ok.inj hr)
      obtain ⟨name, rfl, hname⟩ := Json.scanString_eq_ok.mp hscan
      exact ⟨r.1, name, rfl, hname, rfl⟩
    · exact nomatch h
  · rintro ⟨key, name, rfl, hname, rfl⟩
    rw [readKey, Json.scanString_append hname]
    rfl

/-- Where a key was looked for, the object ends or a string stands. -/
theorem nextKey_eq_ok {first : Bool} {cs rest : List Char} {key? : Option String}
    (h : nextKey first cs = .ok (key?, rest)) :
    (∃ blanks, Blanks blanks ∧ cs = blanks ++ '\x7d' :: rest ∧ key? = none) ∨
      ∃ key lead blanks name, key? = some key ∧ Lead first lead ∧ Blanks blanks ∧
        Spelled name key.toList ∧ cs = lead ++ (blanks ++ '"' :: (name ++ '"' :: rest)) := by
  unfold nextKey at h
  split at h
  · exact nomatch h
  · next tail hskip =>
    obtain ⟨blanks, hblanks, rfl⟩ := exists_blanks hskip
    obtain ⟨rfl, rfl⟩ := Prod.mk.inj (Except.ok.inj h)
    exact .inl ⟨blanks, hblanks, rfl, rfl⟩
  · next tail hskip =>
    obtain ⟨before, hbefore, rfl⟩ := exists_blanks hskip
    split at h
    · exact nomatch h
    · next hfirst =>
      split at h
      · exact nomatch h
      · exact nomatch h
      · obtain ⟨key, name, rfl, hname, htail⟩ := readKey_eq_ok.mp h
        obtain ⟨blanks, hblanks, rfl⟩ := exists_blanks htail
        refine .inr ⟨key, before ++ [','], blanks, name, rfl, ?_, hblanks, hname, by simp⟩
        rw [Lead, if_neg hfirst]
        exact ⟨before, hbefore, rfl⟩
  · split at h
    · next hfirst =>
      obtain ⟨key, name, rfl, hname, htail⟩ := readKey_eq_ok.mp h
      obtain ⟨blanks, hblanks, rfl⟩ := exists_blanks htail
      exact .inr ⟨key, [], blanks, name, rfl, by rw [Lead, if_pos hfirst], hblanks, hname, rfl⟩
    · exact nomatch h

theorem afterColon_eq_ok {cs rest : List Char} :
    afterColon cs = .ok rest ↔ ∃ blanks, Blanks blanks ∧ cs = blanks ++ ':' :: rest := by
  rw [← Json.skipBlanks_eq_cons (by decide), afterColon]
  split <;> simp_all

theorem ofKey?_eq_some {key : String} {limit : Limit} :
    Limit.ofKey? key = some limit ↔ key = limit.key := by
  constructor
  · intro h
    have hkey := List.find?_some h
    exact (beq_iff_eq.mp hkey).symm
  · rintro rfl
    cases limit <;> decide +kernel

/-- A member is read, and what follows it is read with its limit set. -/
theorem Member.readMembers_append {text : List Char} {limit : Limit} {value? : Option Float}
    (h : Member text (limit, value?)) :
    ∃ after, Blanks after ∧ ∀ {unread : List Limit} {limits : Limits Float} {first : Bool}
      {lead rest : List Char}, limit ∈ unread → Lead first lead → Stops rest →
        readMembers unread limits first (lead ++ (text ++ rest)) =
          readMembers (unread.erase limit) (limits.put limit value?) false (after ++ rest) := by
  cases h with
  | @mk before name between element _ _ hbefore hname hbetween helement =>
    obtain ⟨hblanks, hitem, hafter⟩ := helement
    rename_i blanks item after
    refine ⟨after, hafter, ?_⟩
    intro unread limits first lead rest hmem hlead hrest
    have hkey := nextKey_append hlead hbefore hname (between ++ ':' :: (blanks ++ (item ++ (after ++ rest))))
    have hcolon : afterColon (between ++ ':' :: (blanks ++ (item ++ (after ++ rest)))) =
        .ok (blanks ++ (item ++ (after ++ rest))) := afterColon_eq_ok.mpr ⟨between, hbetween, rfl⟩
    have hvalue := hitem.readValue_append hblanks (stops_append hafter hrest)
    simp only [List.append_assoc, List.cons_append]
    rw [readMembers, hkey]
    simp only [lift, ofKey?_eq_some.mpr rfl, hmem, dite_true, hcolon, hvalue]

/-- Where members are read, the object ends or a member that is still to be read stands. -/
theorem readMembers_eq_ok {unread : List Limit} {limits l : Limits Float} {first : Bool}
    {cs rest : List Char} (h : readMembers unread limits first cs = .ok (l, rest)) :
    (∃ blanks, Blanks blanks ∧ cs = blanks ++ '\x7d' :: rest ∧ l = limits) ∨
      ∃ lead text limit value? cs', limit ∈ unread ∧ Lead first lead ∧
        (∀ after, Blanks after → Member (text ++ after) (limit, value?)) ∧ cs = lead ++ (text ++ cs') ∧
        readMembers (unread.erase limit) (limits.put limit value?) false cs' = .ok (l, rest) := by
  rw [readMembers] at h
  cases hkey : nextKey first cs with
  | error e => simp [hkey, lift] at h
  | ok r =>
    obtain ⟨key?, tail⟩ := r
    obtain ⟨blanks, hblanks, rfl, rfl⟩ | ⟨key, lead, before, name, rfl, hlead, hbefore, hname, rfl⟩ :=
      nextKey_eq_ok hkey
    · simp only [hkey, lift, Except.ok.injEq, Prod.mk.injEq] at h
      obtain ⟨rfl, rfl⟩ := h
      exact .inl ⟨blanks, hblanks, rfl, rfl⟩
    · simp only [hkey, lift] at h
      cases hlimit : Limit.ofKey? key with
      | none => simp [hlimit] at h
      | some limit =>
        obtain rfl := ofKey?_eq_some.mp hlimit
        by_cases hmem : limit ∈ unread
        · simp only [hlimit, hmem, dite_true] at h
          cases hcolon : afterColon tail with
          | error e => simp [hcolon] at h
          | ok tail' =>
            simp only [hcolon] at h
            cases hvalue : readValue tail' with
            | error e => simp [hvalue] at h
            | ok r =>
              obtain ⟨value?, cs'⟩ := r
              simp only [hvalue] at h
              obtain ⟨between, hbetween, rfl⟩ := afterColon_eq_ok.mp hcolon
              obtain ⟨blanks, item, hblanks, hitem, rfl⟩ := exists_item hvalue
              refine .inr ⟨lead, before ++ '"' :: (name ++ '"' :: (between ++ ':' :: (blanks ++ item))),
                limit, value?, cs', hmem, hlead, fun after hafter => ?_, by simp, h⟩
              have helement := Element.mk hblanks hitem hafter
              simpa using Member.mk hbefore hname hbetween helement
        · simp [hlimit, hmem] at h

/-- The limits of members, set one after the other. -/
def putAll (limits : Limits Float) (entries : List (Limit × Option Float)) : Limits Float :=
  entries.foldl (fun l e => l.put e.1 e.2) limits

/-- Members are read up to the end of the object. -/
theorem Members.readMembers_append {text : List Char} {entries : List (Limit × Option Float)}
    (h : Members text entries) {unread : List Limit} {limits : Limits Float} {first : Bool}
    {lead : List Char} (hlead : Lead first lead) (hnodup : (entries.map Prod.fst).Nodup)
    (hunread : ∀ e ∈ entries, e.1 ∈ unread) (rest : List Char) :
    readMembers unread limits first (lead ++ (text ++ '\x7d' :: rest)) =
      .ok (putAll limits entries, rest) := by
  induction h generalizing unread limits first lead with
  | @one text entry hmember =>
    obtain ⟨after, hafter, hread⟩ := hmember.readMembers_append
    rw [hread (hunread entry (by simp)) hlead (stops_cons (by decide) rest), readMembers,
      nextKey_end hafter]
    rfl
  | @more text texts entry entries hmember _ ih =>
    obtain ⟨after, hafter, hread⟩ := hmember.readMembers_append
    obtain ⟨hentry, hentries⟩ := List.nodup_cons.mp hnodup
    have hlead' : Lead false (after ++ [',']) := ⟨after, hafter, rfl⟩
    have hunread' : ∀ e ∈ entries, e.1 ∈ unread.erase entry.1 := by
      intro e he
      have hne : e.1 ≠ entry.1 := fun heq => hentry (heq ▸ List.mem_map_of_mem he)
      exact (List.mem_erase_of_ne hne).mpr (hunread e (List.mem_cons_of_mem _ he))
    rw [List.append_assoc, List.cons_append, hread (hunread entry (by simp)) hlead (stops_cons (by decide) _),
      List.append_cons, ih hlead' hentries hunread']
    rfl

/-- What is read up to the end of an object are members, with every name once. -/
theorem exists_members {unread : List Limit} {limits l : Limits Float} {first : Bool}
    {cs rest : List Char} (hunread : unread.Nodup)
    (h : readMembers unread limits first cs = .ok (l, rest)) :
    (∃ blanks, Blanks blanks ∧ cs = blanks ++ '\x7d' :: rest ∧ l = limits) ∨
      ∃ lead text entries, Lead first lead ∧ Members text entries ∧ cs = lead ++ (text ++ '\x7d' :: rest) ∧
        (entries.map Prod.fst).Nodup ∧ (∀ e ∈ entries, e.1 ∈ unread) ∧ l = putAll limits entries := by
  -- every member takes its limit from those still to be read
  induction hn : unread.length generalizing unread limits first cs with
  | zero =>
    obtain hend | ⟨-, -, limit, -, -, hmem, -⟩ := readMembers_eq_ok h
    · exact .inl hend
    · rw [List.length_eq_zero_iff.mp hn] at hmem
      exact nomatch hmem
  | succ n ih =>
    obtain hend | ⟨lead, text, limit, value?, cs, hmem, hlead, hmember, rfl, hnext⟩ := readMembers_eq_ok h
    · exact .inl hend
    · right
      have hlength : (unread.erase limit).length = n := by rw [List.length_erase_of_mem hmem]; omega
      obtain ⟨blanks, hblanks, rfl, rfl⟩ |
        ⟨_, texts, entries, ⟨blanks, hblanks, rfl⟩, hmembers, rfl, hnodup, hsub, rfl⟩ :=
          ih (hunread.erase limit) hnext hlength
      · exact ⟨lead, text ++ blanks, [(limit, value?)], hlead, .one (hmember blanks hblanks), by simp,
          by simp, by simpa using hmem, rfl⟩
      · refine ⟨lead, text ++ blanks ++ ',' :: texts, (limit, value?) :: entries, hlead,
          .more (hmember blanks hblanks) hmembers, by simp, ?_, ?_, rfl⟩
        · rw [List.map_cons, List.nodup_cons]
          refine ⟨fun hin => ?_, hnodup⟩
          obtain ⟨e, he, heq⟩ := List.mem_map.mp hin
          exact hunread.not_mem_erase (heq ▸ hsub e he)
        · rintro e (_ | ⟨_, he⟩)
          · exact hmem
          · exact List.mem_of_mem_erase (hsub e he)

/-- A limit is set by the member that names it. -/
theorem get?_putAll {entries : List (Limit × Option Float)} (hnodup : (entries.map Prod.fst).Nodup)
    (limits : Limits Float) (limit : Limit) (x : Float) :
    (putAll limits entries).get? limit = some x ↔
      (limit, some x) ∈ entries ∨ limit ∉ entries.map Prod.fst ∧ limits.get? limit = some x := by
  induction entries generalizing limits with
  | nil => simp [putAll]
  | cons entry entries ih =>
    obtain ⟨hentry, hentries⟩ := List.nodup_cons.mp hnodup
    have hput : (putAll limits (entry :: entries)).get? limit =
        (putAll (limits.put entry.1 entry.2) entries).get? limit := rfl
    rw [hput, ih hentries, get?_put]
    obtain ⟨named, value?⟩ := entry
    by_cases hlimit : limit = named
    · subst hlimit
      have hnot : (limit, some x) ∉ entries := fun hmem => hentry (List.mem_map.mpr ⟨_, hmem, rfl⟩)
      simp only [List.mem_cons, List.map_cons, Prod.mk.injEq, true_and, hnot, or_false, false_or,
        if_true, true_or, not_true_eq_false, false_and]
      exact ⟨fun h => h.2.symm, fun h => ⟨hentry, h.symm⟩⟩
    · simp [hlimit]

/-- Limits are told apart by their values. -/
theorem eq_of_get? {l l' : Limits Float} (h : ∀ limit x, l.get? limit = some x ↔ l'.get? limit = some x) :
    l = l' := by
  have hget (limit : Limit) : l.get? limit = l'.get? limit := Option.ext (h limit)
  obtain ⟨gap?, time?⟩ := l
  obtain ⟨gap'?, time'?⟩ := l'
  obtain rfl : gap? = gap'? := hget .gap
  obtain rfl : time? = time'? := hget .time
  rfl

theorem get?_putAll_unset {entries : List (Limit × Option Float)} (hnodup : (entries.map Prod.fst).Nodup)
    (limit : Limit) (x : Float) :
    (putAll unset entries).get? limit = some x ↔ (limit, some x) ∈ entries := by
  rw [get?_putAll hnodup]
  cases limit <;> simp [unset, get?]

theorem mem_all (limit : Limit) : limit ∈ Limit.all := by
  cases limit <;> decide

/-- **An object is read** when its members name limits, each at most once. -/
theorem Inner.readMembers_append {inner : List Char} {entries : List (Limit × Option Float)}
    (h : Inner inner entries) (hnodup : (entries.map Prod.fst).Nodup) (rest : List Char) :
    readMembers Limit.all unset true (inner ++ '\x7d' :: rest) = .ok (putAll unset entries, rest) := by
  rcases h with ⟨hblanks, rfl⟩ | hmembers
  · rw [readMembers, nextKey_end hblanks]
    rfl
  · have hlead : Lead true [] := rfl
    exact hmembers.readMembers_append hlead hnodup (fun e _ => mem_all e.1) rest

theorem exists_inner {l : Limits Float} {cs rest : List Char}
    (h : readMembers Limit.all unset true cs = .ok (l, rest)) :
    ∃ inner entries, Inner inner entries ∧ cs = inner ++ '\x7d' :: rest ∧
      (entries.map Prod.fst).Nodup ∧ l = putAll unset entries := by
  obtain ⟨blanks, hblanks, rfl, rfl⟩ | ⟨_, text, entries, rfl, hmembers, rfl, hnodup, -, rfl⟩ :=
    exists_members (by decide) h
  · exact ⟨blanks, [], .inl ⟨hblanks, rfl⟩, rfl, List.nodup_nil, rfl⟩
  · exact ⟨text, entries, .inr hmembers, rfl, hnodup, rfl⟩

/-! ## Lists -/

theorem readItem_zero {before item rest : List Char} {value? : Option Float} (hbefore : Blanks before)
    (hitem : Item item value?) (hrest : Stops rest) :
    readItem 0 (before ++ (item ++ rest)) = .ok (value?, rest) := by
  have hread := hitem.readValue_append (List.forall_mem_nil _) hrest
  obtain ⟨c, tail, rfl, hc, hcomma, hbracket⟩ := hitem.exists_cons_not
  rw [List.nil_append, List.cons_append] at hread
  rw [readItem, List.cons_append, skipBlanks_append_cons hbefore hc]
  split
  · next hnil => exact nomatch hnil
  · next heq => exact absurd (List.cons.inj heq).1 hbracket
  · next heq => exact absurd (List.cons.inj heq).1 hcomma
  · simpa using hread

theorem readItem_one {blanks before item rest : List Char} {value? : Option Float}
    (hblanks : Blanks blanks) (hbefore : Blanks before) (hitem : Item item value?) (hrest : Stops rest) :
    readItem 1 (blanks ++ ',' :: (before ++ (item ++ rest))) = .ok (value?, rest) := by
  have hread := hitem.readValue_append (List.forall_mem_nil _) hrest
  obtain ⟨c, tail, rfl, hc, hcomma, hbracket⟩ := hitem.exists_cons_not
  rw [List.nil_append, List.cons_append] at hread
  rw [readItem, skipBlanks_append_cons hblanks (by decide)]
  simp only [one_ne_zero, if_false, List.cons_append, skipBlanks_append_cons hbefore hc]
  split
  · next heq => exact absurd (List.cons.inj heq).1 hbracket
  · exact hread

/-- What is read first in a list is a value. -/
theorem exists_first {cs rest : List Char} {value? : Option Float} (h : readItem 0 cs = .ok (value?, rest)) :
    ∃ before item, Blanks before ∧ Item item value? ∧ cs = before ++ (item ++ rest) := by
  unfold readItem at h
  split at h
  · exact nomatch h
  · exact nomatch h
  · exact nomatch h
  · obtain ⟨blanks, hblanks, hcs⟩ : ∃ b, Blanks b ∧ cs = b ++ skipBlanks cs := exists_blanks rfl
    obtain ⟨before, item, hbefore, hitem, hskip⟩ := exists_item h
    refine ⟨blanks ++ before, item, blanks_append hblanks hbefore, hitem, ?_⟩
    rw [hcs, hskip, List.append_assoc]

/-- What is read second in a list is a value after a comma. -/
theorem exists_second {cs rest : List Char} {value? : Option Float} (h : readItem 1 cs = .ok (value?, rest)) :
    ∃ blanks before item, Blanks blanks ∧ Blanks before ∧ Item item value? ∧
      cs = blanks ++ ',' :: (before ++ (item ++ rest)) := by
  unfold readItem at h
  split at h
  · exact nomatch h
  · exact nomatch h
  · next tail hskip =>
    obtain ⟨blanks, hblanks, rfl⟩ := exists_blanks hskip
    simp only [one_ne_zero, if_false] at h
    split at h
    · exact nomatch h
    · obtain ⟨blanks', hblanks', htail⟩ : ∃ b, Blanks b ∧ tail = b ++ skipBlanks tail := exists_blanks rfl
      obtain ⟨before, item, hbefore, hitem, hskip'⟩ := exists_item h
      refine ⟨blanks, blanks' ++ before, item, hblanks, blanks_append hblanks' hbefore, hitem, ?_⟩
      rw [htail, hskip', List.append_assoc]
  · exact nomatch h

theorem afterList_eq_ok {cs rest : List Char} :
    afterList cs = .ok rest ↔ ∃ blanks, Blanks blanks ∧ cs = blanks ++ ']' :: rest := by
  rw [← Json.skipBlanks_eq_cons (by decide), afterList]
  split
  case h_3 =>
    split <;> simp_all
  all_goals simp_all

/-- **A list is read** when it has two values. -/
theorem readItems_eq_ok {cs rest : List Char} {l : Limits Float} :
    readItems cs = .ok (l, rest) ↔
      ∃ gap time, Element gap l.gap? ∧ Element time l.time? ∧ cs = gap ++ ',' :: (time ++ ']' :: rest) := by
  have hread : readItems cs = .ok (l, rest) ↔ ∃ rest₁ rest₂, readItem 0 cs = .ok (l.gap?, rest₁) ∧
      readItem 1 rest₁ = .ok (l.time?, rest₂) ∧ afterList rest₂ = .ok rest := by
    simp only [readItems, bind_eq_ok, lift_eq_ok, pure, Except.pure, Except.ok.injEq, Prod.mk.injEq,
      Prod.exists]
    constructor
    · rintro ⟨gap?, rest₁, hgap, time?, rest₂, htime, _, hend, rfl, rfl⟩
      exact ⟨rest₁, rest₂, hgap, htime, hend⟩
    · rintro ⟨rest₁, rest₂, hgap, htime, hend⟩
      exact ⟨_, rest₁, hgap, _, rest₂, htime, rest, hend, rfl, rfl⟩
  rw [hread]
  constructor
  · rintro ⟨_, _, hgap, htime, hend⟩
    obtain ⟨before, item, hbefore, hitem, rfl⟩ := exists_first hgap
    obtain ⟨after, before', item', hafter, hbefore', hitem', rfl⟩ := exists_second htime
    obtain ⟨after', hafter', rfl⟩ := afterList_eq_ok.mp hend
    exact ⟨_, _, .mk hbefore hitem hafter, .mk hbefore' hitem' hafter', by simp⟩
  · rintro ⟨_, _, ⟨hbefore, hitem, hafter⟩, ⟨hbefore', hitem', hafter'⟩, rfl⟩
    simp only [List.append_assoc]
    exact ⟨_, _, readItem_zero hbefore hitem (stops_append hafter (stops_cons (by decide) _)),
      readItem_one hafter hbefore' hitem' (stops_append hafter' (stops_cons (by decide) _)),
      afterList_eq_ok.mpr ⟨_, hafter', rfl⟩⟩

/-! ## Whole texts -/

/-- What is read at the front of a text is an object or a list. -/
theorem readFront_eq_ok {cs rest : List Char} {l : Limits Float} :
    readFront cs = .ok (l, rest) ↔
      (∃ before inner entries, Blanks before ∧ Inner inner entries ∧ (entries.map Prod.fst).Nodup ∧
        cs = before ++ '\x7b' :: (inner ++ '\x7d' :: rest) ∧ l = putAll unset entries) ∨
      ∃ before gap time, Blanks before ∧ Element gap l.gap? ∧ Element time l.time? ∧
        cs = before ++ '[' :: (gap ++ ',' :: (time ++ ']' :: rest)) := by
  constructor
  · intro h
    unfold readFront at h
    split at h
    · exact nomatch h
    · next hskip =>
      obtain ⟨before, hbefore, rfl⟩ := exists_blanks hskip
      obtain ⟨inner, entries, hinner, rfl, hnodup, rfl⟩ := exists_inner h
      exact .inl ⟨before, inner, entries, hbefore, hinner, hnodup, rfl, rfl⟩
    · next hskip =>
      obtain ⟨before, hbefore, rfl⟩ := exists_blanks hskip
      obtain ⟨gap, time, hgap, htime, rfl⟩ := readItems_eq_ok.mp h
      exact .inr ⟨before, gap, time, hbefore, hgap, htime, rfl⟩
    · exact absurd h refuse_ne_ok
  · rintro (⟨before, inner, entries, hbefore, hinner, hnodup, rfl, rfl⟩ |
      ⟨before, gap, time, hbefore, hgap, htime, rfl⟩)
    · rw [readFront, skipBlanks_append_cons hbefore (by decide)]
      exact hinner.readMembers_append hnodup rest
    · rw [readFront, skipBlanks_append_cons hbefore (by decide)]
      exact readItems_eq_ok.mpr ⟨gap, time, hgap, htime, rfl⟩

/-- **The texts that set limits** are read, and nothing else is. -/
theorem readAny_eq_ok {text : String} {l : Limits Float} :
    readAny text = .ok l ↔ Document text.toList l := by
  have hread : readAny text = .ok l ↔ ∃ rest, readFront text.toList = .ok (l, rest) ∧ Blanks rest := by
    simp only [readAny, bind_eq_ok, Prod.exists]
    constructor
    · rintro ⟨l', rest, hfront, hend⟩
      split at hend
      · next hskip =>
        obtain rfl := Except.ok.inj hend
        exact ⟨rest, hfront, Json.skipBlanks_eq_nil.mp hskip⟩
      · exact nomatch hend
    · rintro ⟨rest, hfront, hrest⟩
      exact ⟨l, rest, hfront, by rw [Json.skipBlanks_eq_nil.mpr hrest]; rfl⟩
  simp only [hread, readFront_eq_ok]
  constructor
  · rintro ⟨rest, ⟨before, inner, entries, hbefore, hinner, hnodup, htext, rfl⟩ |
      ⟨before, gap, time, hbefore, hgap, htime, htext⟩, hrest⟩ <;> rw [htext]
    · exact .object hbefore hinner hrest hnodup (get?_putAll_unset hnodup)
    · exact .list hbefore hgap htime hrest
  · intro hdocument
    generalize text.toList = cs at hdocument
    cases hdocument with
    | @object before inner after entries _ hbefore hinner hafter hnodup hentries =>
      refine ⟨after, .inl ⟨before, inner, entries, hbefore, hinner, hnodup, rfl, ?_⟩, hafter⟩
      exact eq_of_get? fun limit x => by rw [hentries, get?_putAll_unset hnodup]
    | list hbefore hgap htime hafter =>
      exact ⟨_, .inr ⟨_, _, _, hbefore, hgap, htime, rfl⟩, hafter⟩

end LinearProgram.Limits
