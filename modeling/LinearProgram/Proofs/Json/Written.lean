import Mathlib
import LinearProgram.Proofs.Json.Grammar

/-!
# What is written as JSON

Strings are written so that each of their characters is spelled out, whatever the characters are. Where the
numbers in a value read back, both ways of writing the value give one of its texts
(`denotes_compact`, `denotes_indented`): line breaks, indentation and the short forms of an empty list and an
empty object take nothing away.
-/

namespace LinearProgram.Json

/-! ## Strings -/

/-- A character is written as one of its spellings. -/
theorem spells_escapeChar (c : Char) : Spells (escapeChar c) c := by
  unfold escapeChar
  split_ifs with hquote hback hbackspace hfeed hline hreturn htab hcontrol
  · subst hquote; exact .letter rfl
  · subst hback; exact .letter rfl
  · subst hbackspace; exact .letter rfl
  · subst hfeed; exact .letter rfl
  · subst hline; exact .letter rfl
  · subst hreturn; exact .letter rfl
  · subst htab; exact .letter rfl
  · have hvalue : ∀ n < 32, hexFrom? 0 ['0', '0', Nat.digitChar (n / 16), Nat.digitChar (n % 16)] = some n := by
      decide
    have hunit : IsUnit ['0', '0', Nat.digitChar (c.toNat / 16), Nat.digitChar (c.toNat % 16)] c.toNat :=
      ⟨rfl, hvalue c.toNat hcontrol⟩
    have hlead : ¬IsLead c.toNat := fun h => by unfold IsLead at h; omega
    have htrail : ¬IsTrail c.toNat := fun h => by unfold IsTrail at h; omega
    have hspells := Spells.unit hunit hlead htrail
    rwa [Char.ofNat_toNat] at hspells
  · exact .itself hquote hback (Nat.not_lt.mp hcontrol)

theorem spelled_flatMap_escapeChar (s : List Char) : Spelled (s.flatMap escapeChar) s := by
  induction s with
  | nil => exact .nil
  | cons c s ih => exact .cons (spells_escapeChar c) ih

theorem toList_stringText (s : String) :
    (stringText s).toList = '"' :: (s.toList.flatMap escapeChar ++ ['"']) := by
  simp [stringText]

theorem denotes_stringText (s : String) : Denotes (stringText s).toList (.string s) := by
  rw [toList_stringText]
  exact .string (spelled_flatMap_escapeChar s.toList)

/-! ## Numbers -/

/-- The text of the number reads as that number. -/
def ReadsBack (x : Float) : Prop :=
  number? (numberText x).toList = some (x, [])

instance (x : Float) : Decidable (ReadsBack x) :=
  inferInstanceAs (Decidable (_ = _))

theorem ReadsBack.numberText {x : Float} (h : ReadsBack x) : NumberText (numberText x).toList x := by
  obtain ⟨text, htext, heq⟩ := exists_numberText h
  rwa [heq, List.append_nil]

mutual
/-- The numbers in a value. -/
def numbers : Json → List Float
  | .number x => [x]
  | .string _ => []
  | .list items => itemNumbers items
  | .object members => memberNumbers members

/-- The numbers in the items of a list. -/
def itemNumbers : List Json → List Float
  | [] => []
  | item :: items => numbers item ++ itemNumbers items

/-- The numbers in the values of members. -/
def memberNumbers : List (String × Json) → List Float
  | [] => []
  | (_, value) :: members => numbers value ++ memberNumbers members
end

/-! ## Blanks -/

theorem blanks_newLine (level : ℕ) : Blanks (newLine level).toList := by
  have hspaces : Blanks (List.replicate (2 * level) ' ') := fun c hc => by
    rw [List.eq_of_mem_replicate hc]
    decide
  simpa [newLine] using blanks_append (blanks_singleton (c := '\n') (by decide)) hspaces

/-! ## Compact text -/

mutual
/-- The compact text of a value is one of its texts. -/
theorem denotes_compact : ∀ value : Json, (∀ x ∈ value.numbers, ReadsBack x) →
    Denotes (compact value).toList value
  | .number x, h => .number (h x (by simp [numbers])).numberText
  | .string s, _ => denotes_stringText s
  | .list [], _ => by simpa [compact, compactItems] using Denotes.emptyList blanks_nil
  | .list (item :: items), h => by
    have hitems := items_compactItems (item :: items) (List.cons_ne_nil _ _) h
    simpa [compact] using Denotes.list hitems
  | .object [], _ => by simpa [compact, compactMembers] using Denotes.emptyObject blanks_nil
  | .object (member :: members), h => by
    have hmembers := members_compactMembers (member :: members) (List.cons_ne_nil _ _) h
    simpa [compact] using Denotes.object hmembers

theorem items_compactItems : ∀ items : List Json, items ≠ [] → (∀ x ∈ itemNumbers items, ReadsBack x) →
    Items (compactItems items).toList items
  | [], hne, _ => absurd rfl hne
  | [item], _, h => by
    have hitem := denotes_compact item fun x hx => h x (by simp [itemNumbers, hx])
    simpa [compactItems] using Items.one (.mk blanks_nil hitem blanks_nil)
  | item :: item' :: items, _, h => by
    have hitem := denotes_compact item fun x hx => h x (by simp [itemNumbers, hx])
    have hitems := items_compactItems (item' :: items) (List.cons_ne_nil _ _) fun x hx =>
      h x (by rw [itemNumbers]; exact List.mem_append_right _ hx)
    simpa [compactItems] using Items.more (.mk blanks_nil hitem blanks_nil) hitems

theorem members_compactMembers : ∀ members : List (String × Json), members ≠ [] →
    (∀ x ∈ memberNumbers members, ReadsBack x) → Members (compactMembers members).toList members
  | [], hne, _ => absurd rfl hne
  | [(key, value)], _, h => by
    have hvalue := denotes_compact value fun x hx => h x (by simp [memberNumbers, hx])
    have hmember := Member.mk blanks_nil (spelled_flatMap_escapeChar key.toList) blanks_nil
      (.mk blanks_nil hvalue blanks_nil)
    simpa [compactMembers, toList_stringText] using Members.one hmember
  | (key, value) :: member :: members, _, h => by
    have hvalue := denotes_compact value fun x hx => h x (by simp [memberNumbers, hx])
    have hmember := Member.mk blanks_nil (spelled_flatMap_escapeChar key.toList) blanks_nil
      (.mk blanks_nil hvalue blanks_nil)
    have hmembers := members_compactMembers (member :: members) (List.cons_ne_nil _ _) fun x hx =>
      h x (by rw [memberNumbers]; exact List.mem_append_right _ hx)
    simpa [compactMembers, toList_stringText] using Members.more hmember hmembers
end

/-! ## Indented text -/

mutual
/-- The indented text of a value is one of its texts. -/
theorem denotes_indented (level : ℕ) : ∀ value : Json, (∀ x ∈ value.numbers, ReadsBack x) →
    Denotes (indented level value).toList value
  | .number x, h => .number (h x (by simp [numbers])).numberText
  | .string s, _ => denotes_stringText s
  | .list [], _ => by simpa [indented] using Denotes.emptyList blanks_nil
  | .list (item :: items), h => by
    have hitem := denotes_indented (level + 1) item fun x hx => h x (by simp [numbers, itemNumbers, hx])
    have hitems := items_indentedItems (level + 1) (blanks_newLine (level + 1)) hitem
      (blanks_newLine level) items fun x hx => h x (by simp [numbers, itemNumbers, hx])
    simpa [indented] using Denotes.list hitems
  | .object [], _ => by simpa [indented] using Denotes.emptyObject blanks_nil
  | .object ((key, value) :: members), h => by
    have hvalue := denotes_indented (level + 1) value fun x hx => h x (by simp [numbers, memberNumbers, hx])
    have hmembers := members_indentedMembers (level + 1) (blanks_newLine (level + 1)) key hvalue
      (blanks_newLine level) members fun x hx => h x (by simp [numbers, memberNumbers, hx])
    simpa [indented, toList_stringText] using Denotes.object hmembers

/-- An item and those after it, between the line breaks around all of them. -/
theorem items_indentedItems (level : ℕ) {before text after : List Char} {item : Json}
    (hbefore : Blanks before) (hitem : Denotes text item) (hafter : Blanks after) :
    ∀ items : List Json, (∀ x ∈ itemNumbers items, ReadsBack x) →
      Items (before ++ (text ++ ((indentedItems level items).toList ++ after))) (item :: items)
  | [], _ => .one (.mk hbefore hitem hafter)
  | item' :: items, h => by
    have hitem' := denotes_indented level item' fun x hx => h x (by simp [itemNumbers, hx])
    have hitems := items_indentedItems level (blanks_newLine level) hitem' hafter items fun x hx =>
      h x (by simp [itemNumbers, hx])
    simpa [indentedItems] using Items.more (.mk hbefore hitem blanks_nil) hitems

/-- A member and those after it, between the line breaks around all of them. -/
theorem members_indentedMembers (level : ℕ) {before text after : List Char} {value : Json}
    (hbefore : Blanks before) (key : String) (hvalue : Denotes text value) (hafter : Blanks after) :
    ∀ members : List (String × Json), (∀ x ∈ memberNumbers members, ReadsBack x) →
      Members (before ++ '"' :: (key.toList.flatMap escapeChar ++ '"' ::
        ':' :: ' ' :: (text ++ ((indentedMembers level members).toList ++ after)))) ((key, value) :: members)
  | [], _ => .one (.mk hbefore (spelled_flatMap_escapeChar key.toList) blanks_nil
      (.mk (blanks_singleton (c := ' ') (by decide)) hvalue hafter))
  | (key', value') :: members, h => by
    have hvalue' := denotes_indented level value' fun x hx => h x (by simp [memberNumbers, hx])
    have hmembers := members_indentedMembers level (blanks_newLine level) key' hvalue' hafter members
      fun x hx => h x (by simp [memberNumbers, hx])
    have hmember := Member.mk hbefore (spelled_flatMap_escapeChar key.toList) blanks_nil
      (.mk (blanks_singleton (c := ' ') (by decide)) hvalue blanks_nil)
    simpa [indentedMembers, toList_stringText] using Members.more hmember hmembers
end

end LinearProgram.Json
