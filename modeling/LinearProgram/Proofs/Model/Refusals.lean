import Mathlib
import LinearProgram.Model.Edit
import LinearProgram.Proofs.Model.Additions

/-!
# Refused calls

A call on a draft is refused for the first of its faults and for nothing else (`attempt_eq_error_iff`). A
draft that is edited in place has then not been touched (`carryOut_edit`), so that a refused call can be
taken out of any sequence of calls: the other answers stay the same, and so does the draft that is left
(`refused_exactly`).
-/

namespace LinearProgram.Draft

variable {K : Type}

/-! ## In place -/

/-- What is answered and left by a call that does everything it is asked for or nothing. -/
def leaving (d : Draft K) : Except ModelError (Draft K) → Except ModelError Unit × Draft K
  | .ok d' => (.ok (), d')
  | .error e => (.error e, d)

theorem carryOut_declare (d : Draft K) (id : String) (domain : Domain) :
    (Edit.declare id domain).carryOut d = d.leaving (d.declare id domain) := by
  rw [Edit.declare, Edit.carryOut_get_bind, declare]
  split <;> rfl

theorem carryOut_checkNames (d : Draft K) (place : Place) (e : LinearExpr K) :
    (Edit.checkNames place e).carryOut d =
      match d.undeclared? e with
      | some name => (.error (.unknownVariable name place), d)
      | none => (.ok (), d) := by
  rw [Edit.checkNames, Edit.carryOut_get_bind]
  cases d.undeclared? e <;> rfl

variable [Scalar K]

theorem carryOut_constrain (d : Draft K) (id : String) (e : LinearExpr K) (relation : Relation)
    (bound : K) :
    (Edit.constrain id e relation bound).carryOut d = d.leaving (d.constrain id e relation bound) := by
  rw [Edit.constrain, Edit.carryOut_get_bind, constrain, check]
  cases d.reserves id with
  | true => rfl
  | false =>
    simp only [Bool.false_eq_true, if_false, Edit.carryOut_bind, carryOut_checkNames]
    cases d.undeclared? e with
    | some name => rfl
    | none => cases e.isFinite <;> cases Scalar.isFinite bound <;> rfl

theorem carryOut_pursue (d : Draft K) (e : LinearExpr K) (sense : Sense) :
    (Edit.pursue e sense).carryOut d = d.leaving (d.pursue e sense) := by
  rw [Edit.pursue, Edit.carryOut_bind, carryOut_checkNames, pursue, check]
  cases d.undeclared? e with
  | some name => rfl
  | none => cases e.isFinite <;> rfl

/-- A call as an edit. -/
def Call.edit : Call K → Edit K Unit
  | .declare id domain => .declare id domain
  | .constrain id products relation bound => .constrain id (.ofList products) relation bound
  | .pursue products sense => .pursue (.ofList products) sense

/-- A call that is refused leaves the draft as it was. -/
theorem carryOut_edit (d : Draft K) (call : Call K) :
    call.edit.carryOut d = d.leaving (call.attempt d) := by
  cases call with
  | declare id domain => exact carryOut_declare d id domain
  | constrain id products relation bound => exact carryOut_constrain d id _ relation bound
  | pursue products sense => exact carryOut_pursue d _ sense

/-! ## Faults -/

/-- The first of some names that the draft does not declare. -/
def FirstUndeclared (d : Draft K) (names : List String) (name : String) : Prop :=
  ∃ before after, names = before ++ name :: after ∧
    (∀ n ∈ before, n ∈ d.vars.map Variable.id) ∧ name ∉ d.vars.map Variable.id

/-- What is wrong with an expression and the bound beside it: a name that is not declared comes before a
number that is not finite. -/
inductive Faulty (d : Draft K) (place : Place) (e : LinearExpr K) (bound? : Option K) :
    ModelError → Prop
  | unknown {name : String} (h : d.FirstUndeclared e.names name) :
      Faulty d place e bound? (.unknownVariable name place)
  | nonFinite (hdeclared : ∀ name ∈ e.names, name ∈ d.vars.map Variable.id)
      (h : ∃ x ∈ e.terms.map Term.coefficient ++ bound?.toList, Scalar.isFinite x = false) :
      Faulty d place e bound? (.nonFiniteCoefficient place)

/-- What is wrong with a call on the draft: an identifier that is taken comes before every other fault. -/
inductive Refused (d : Draft K) : Call K → ModelError → Prop
  | declared {id : String} {domain : Domain} (h : id ∈ d.vars.map Variable.id) :
      Refused d (.declare id domain) (.duplicateIdentifier id)
  | reserved {id : String} {products : List (String × K)} {relation : Relation} {bound : K}
      (h : id ∈ d.constraints.map Constraint.id) :
      Refused d (.constrain id products relation bound) (.duplicateIdentifier id)
  | constraint {id : String} {products : List (String × K)} {relation : Relation} {bound : K}
      {e : ModelError} (hfree : id ∉ d.constraints.map Constraint.id)
      (h : d.Faulty (.constraint id) (.ofList products) (some bound) e) :
      Refused d (.constrain id products relation bound) e
  | objective {products : List (String × K)} {sense : Sense} {e : ModelError}
      (h : d.Faulty .objective (.ofList products) none e) : Refused d (.pursue products sense) e

/-- A constraint whose identifier is free has the faults of its expression and bound. -/
theorem refused_constrain_iff {d : Draft K} {id : String} {products : List (String × K)}
    {relation : Relation} {bound : K} {error : ModelError}
    (hfree : id ∉ d.constraints.map Constraint.id) :
    d.Refused (.constrain id products relation bound) error ↔
      d.Faulty (.constraint id) (.ofList products) (some bound) error := by
  constructor
  · rintro (- | hid | ⟨-, hfault⟩)
    · exact absurd hid hfree
    · exact hfault
  · exact .constraint hfree

/-- An objective has the faults of its expression. -/
theorem refused_pursue_iff {d : Draft K} {products : List (String × K)} {sense : Sense}
    {error : ModelError} : d.Refused (.pursue products sense) error ↔
      d.Faulty .objective (.ofList products) none error := by
  constructor
  · rintro (- | - | - | hfault)
    exact hfault
  · exact .objective

section WellFormed

variable {d : Draft K} (h : d.WellFormed)
include h

theorem WellFormed.undeclared?_eq_some_iff {e : LinearExpr K} {name : String} :
    d.undeclared? e = some name ↔ d.FirstUndeclared e.names name := by
  have hdeclares (n : String) : d.declares n = false ↔ n ∉ d.vars.map Variable.id := by
    rw [← h.declares_eq_true, Bool.not_eq_true]
  rw [undeclared?, List.find?_eq_some_iff_append, FirstUndeclared]
  simp only [Bool.not_eq_true', Bool.not_eq_false', hdeclares, h.declares_eq_true]
  constructor
  · rintro ⟨hname, before, after, hnames, hbefore⟩
    exact ⟨before, after, hnames, fun n hn => by simpa [h.declares_eq_true] using hbefore n hn, hname⟩
  · rintro ⟨before, after, hnames, hbefore, hname⟩
    exact ⟨hname, before, after, hnames, fun n hn => by simpa [h.declares_eq_true] using hbefore n hn⟩

theorem WellFormed.undeclared?_eq_none_iff {e : LinearExpr K} :
    d.undeclared? e = none ↔ ∀ name ∈ e.names, name ∈ d.vars.map Variable.id := by
  simp only [undeclared?, List.find?_eq_none, Bool.not_eq_true', Bool.not_eq_false, h.declares_eq_true]

/-- A check fails with the first fault. -/
theorem WellFormed.check_eq_error_iff {place : Place} {e : LinearExpr K} {bound? : Option K}
    {error : ModelError} :
    d.check place e (bound?.all Scalar.isFinite) = .error error ↔ d.Faulty place e bound? error := by
  have hfinite : (e.isFinite && bound?.all Scalar.isFinite) = false ↔
      ∃ x ∈ e.terms.map Term.coefficient ++ bound?.toList, Scalar.isFinite x = false := by
    rw [Bool.and_eq_false_iff, LinearExpr.isFinite, List.all_eq_false]
    cases bound? <;> simp [or_and_right, exists_or]
  rw [check]
  cases hundeclared : d.undeclared? e with
  | some name =>
    have hfirst := h.undeclared?_eq_some_iff.mp hundeclared
    constructor
    · rintro ⟨⟩
      exact .unknown hfirst
    · rintro (hother | ⟨hdeclared, -⟩)
      · rw [← h.undeclared?_eq_some_iff, hundeclared, Option.some.injEq] at hother
        rw [hother]
      · rw [← h.undeclared?_eq_none_iff, hundeclared] at hdeclared
        cases hdeclared
  | none =>
    have hdeclared := h.undeclared?_eq_none_iff.mp hundeclared
    dsimp only
    split
    · next hsound =>
      constructor
      · rintro ⟨⟩
      · rintro (hother | ⟨-, hx⟩)
        · rw [← h.undeclared?_eq_some_iff, hundeclared] at hother
          cases hother
        · rw [hfinite.mpr hx] at hsound
          cases hsound
    · next hfault =>
      rw [Bool.not_eq_true] at hfault
      constructor
      · rintro ⟨⟩
        exact .nonFinite hdeclared (hfinite.mp hfault)
      · rintro (hother | -)
        · rw [← h.undeclared?_eq_some_iff, hundeclared] at hother
          cases hother
        · rfl

theorem WellFormed.declare_eq_error_iff {id : String} {domain : Domain} {error : ModelError} :
    d.declare id domain = .error error ↔ d.Refused (.declare id domain) error := by
  rw [Draft.declare]
  split
  · next hdeclared =>
    have hid := h.declares_eq_true.mp hdeclared
    constructor
    · rintro ⟨⟩
      exact .declared hid
    · rintro ⟨-⟩
      rfl
  · next hfree =>
    rw [h.declares_eq_true] at hfree
    constructor
    · rintro ⟨⟩
    · rintro ⟨hid⟩
      exact absurd hid hfree

theorem WellFormed.constrain_eq_error_iff {id : String} {products : List (String × K)}
    {relation : Relation} {bound : K} {error : ModelError} :
    d.constrain id (.ofList products) relation bound = .error error ↔
      d.Refused (.constrain id products relation bound) error := by
  rw [Draft.constrain]
  split
  · next hreserved =>
    have hid := h.reserves_eq_true.mp hreserved
    constructor
    · rintro ⟨⟩
      exact .reserved hid
    · rintro (- | - | ⟨hfree, -⟩)
      · rfl
      · exact absurd hid hfree
  · next hfree =>
    rw [h.reserves_eq_true] at hfree
    rw [refused_constrain_iff hfree, ← h.check_eq_error_iff, Option.all_some]
    split
    · next e hcheck => rw [hcheck, Except.error.injEq, Except.error.injEq]
    · next hcheck => simp [hcheck]

theorem WellFormed.pursue_eq_error_iff {products : List (String × K)} {sense : Sense}
    {error : ModelError} : d.pursue (.ofList products) sense = .error error ↔
      d.Refused (.pursue products sense) error := by
  rw [refused_pursue_iff, ← h.check_eq_error_iff, Option.all_none, Draft.pursue]
  split
  · next e hcheck => rw [hcheck, Except.error.injEq, Except.error.injEq]
  · next hcheck => simp [hcheck]

/-- A call is refused for the first of its faults and for nothing else. -/
theorem WellFormed.attempt_eq_error_iff {call : Call K} {error : ModelError} :
    call.attempt d = .error error ↔ d.Refused call error := by
  cases call with
  | declare id domain => exact h.declare_eq_error_iff
  | constrain id products relation bound => exact h.constrain_eq_error_iff
  | pursue products sense => exact h.pursue_eq_error_iff

end WellFormed

/-! ## Sequences of calls -/

/-- The answers to a sequence of calls of which the first is made on `d`, and the draft that is left. -/
def dialogue (d : Draft K) : List (Call K) → List (Except ModelError Unit) × Draft K
  | [] => ([], d)
  | call :: calls =>
    let (answer, d') := call.edit.carryOut d
    let (answers, last) := dialogue d' calls
    (answer :: answers, last)

section Dialogue

variable (d : Draft K)

theorem carryOut_edit_snd (call : Call K) : (call.edit.carryOut d).2 = call.perform d := by
  rw [carryOut_edit, Call.perform]
  cases call.attempt d <;> rfl

theorem dialogue_snd (calls : List (Call K)) : (dialogue d calls).2 = calls.foldl Call.perform d := by
  induction calls generalizing d with
  | nil => rfl
  | cons call calls ih => rw [List.foldl_cons, ← carryOut_edit_snd, ← ih]; rfl

theorem length_dialogue (calls : List (Call K)) : (dialogue d calls).1.length = calls.length := by
  induction calls generalizing d with
  | nil => rfl
  | cons call calls ih => exact congrArg (· + 1) (ih _)

theorem dialogue_append (before after : List (Call K)) :
    dialogue d (before ++ after) =
      ((dialogue d before).1 ++ (dialogue (dialogue d before).2 after).1,
        (dialogue (dialogue d before).2 after).2) := by
  induction before generalizing d with
  | nil => rfl
  | cons call before ih => simp only [List.cons_append, dialogue, ih]

/-- After a call that is refused the dialogue goes on as if it had not been made. -/
theorem dialogue_cons_of_refused {call : Call K} {e : ModelError} (h : call.attempt d = .error e)
    (calls : List (Call K)) :
    dialogue d (call :: calls) = (.error e :: (dialogue d calls).1, (dialogue d calls).2) := by
  simp only [dialogue, carryOut_edit, h, leaving]

/-- The calls that are granted are those that are answered so. -/
theorem mem_granted_iff {call : Call K} {calls : List (Call K)} :
    call ∈ granted d calls ↔ (call, .ok ()) ∈ calls.zip (dialogue d calls).1 := by
  induction calls generalizing d with
  | nil => simp [granted, dialogue]
  | cons c calls ih =>
    rw [granted, dialogue, carryOut_edit]
    cases c.attempt d with
    | error e => simp [leaving, ih]
    | ok d' => simp [leaving, ih]

end Dialogue

/-! ## What a caller can count on -/

/-- What can be counted on when a call on the draft `d` gets the given answer and leaves `d'`. -/
structure Dependable (d : Draft K) (call : Call K) (answer : Except ModelError Unit) (d' : Draft K) :
    Prop where
  /-- The call is refused for the first of its faults. -/
  refused : ∀ e, answer = .error e ↔ d.Refused call e
  /-- It is granted when it has none. -/
  granted : answer = .ok () ↔ ∀ e, ¬ d.Refused call e
  /-- A granted call adds a variable or a constraint at the end, or takes the place of the objective. -/
  added : answer = .ok () →
    d'.vars = d.vars ++ call.variable?.toList ∧ d'.constraints = d.constraints ++ call.constraint?.toList ∧
      d'.objective? = call.objective?.or d.objective?
  /-- Index and reserved identifiers go on agreeing with the lists. -/
  wellFormed : d'.WellFormed
  /-- A refused call changes nothing. -/
  unchanged : ∀ e, answer = .error e → d' = d
  /-- The identifier of a constraint that is refused for another reason is still free. -/
  free : ∀ id products relation bound e, call = .constrain id products relation bound →
    answer = .error e → e ≠ .duplicateIdentifier id →
      ∀ products' relation' bound', (∀ e', ¬ d'.Faulty (.constraint id) (.ofList products') (some bound') e') →
        ((Edit.constrain id (.ofList products') relation' bound').carryOut d').1 = .ok ()

section Dependable

variable {d : Draft K} (h : d.WellFormed)
include h

theorem WellFormed.carryOut_eq_error_iff {call : Call K} {e : ModelError} :
    (call.edit.carryOut d).1 = .error e ↔ d.Refused call e := by
  rw [← h.attempt_eq_error_iff, carryOut_edit]
  cases call.attempt d <;> simp [leaving]

theorem WellFormed.carryOut_eq_ok_iff {call : Call K} :
    (call.edit.carryOut d).1 = .ok () ↔ ∀ e, ¬ d.Refused call e := by
  simp only [← h.attempt_eq_error_iff, carryOut_edit]
  cases call.attempt d <;> simp [leaving]

theorem WellFormed.dependable (call : Call K) :
    d.Dependable call (call.edit.carryOut d).1 (call.edit.carryOut d).2 where
  refused _ := h.carryOut_eq_error_iff
  granted := h.carryOut_eq_ok_iff
  added hanswer := by
    rw [carryOut_edit] at hanswer ⊢
    cases hcall : call.attempt d with
    | error e => simp [hcall, leaving] at hanswer
    | ok d' => exact added_of_attempt hcall
  wellFormed := carryOut_edit_snd d call ▸ h.perform call
  unchanged e hanswer := by
    rw [h.carryOut_eq_error_iff, ← h.attempt_eq_error_iff] at hanswer
    rw [carryOut_edit, hanswer, leaving]
  free id products relation bound e hcall hanswer hother products' relation' bound' hsound := by
    subst hcall
    rw [h.carryOut_eq_error_iff, ← h.attempt_eq_error_iff] at hanswer
    rw [carryOut_edit, hanswer, leaving] at hsound ⊢
    have hfree : id ∉ d.constraints.map Constraint.id := by
      rcases h.attempt_eq_error_iff.mp hanswer with - | - | ⟨hfree, -⟩
      · exact absurd rfl hother
      · exact hfree
    show ((Call.constrain id products' relation' bound').edit.carryOut d).1 = .ok ()
    rw [h.carryOut_eq_ok_iff]
    intro e' he'
    rcases he' with - | hid | ⟨-, hfault⟩
    · exact hfree hid
    · exact hsound e' hfault

end Dependable

/-- A draft has no objective as long as none has been granted. -/
theorem objective?_dialogue_eq_none_iff (calls : List (Call K)) :
    (dialogue empty calls).2.objective? = none ↔
      ∀ products sense, (.pursue products sense, .ok ()) ∉ calls.zip (dialogue empty calls).1 := by
  obtain ⟨-, -, hobjective⟩ := added_of_run (empty : Draft K) calls
  have hnone : (dialogue empty calls).2.objective? = none ↔
      ∀ call ∈ Draft.granted (empty : Draft K) calls, call.objective? = none := by
    rw [dialogue_snd, hobjective, empty, Option.or_none, List.getLast?_eq_none_iff,
      List.filterMap_eq_nil_iff]
  simp only [hnone, ← mem_granted_iff]
  constructor
  · intro h products sense hcall
    cases h _ hcall
  · intro h call hcall
    cases call with
    | declare id domain => rfl
    | constrain id products relation bound => rfl
    | pursue products sense => exact absurd hcall (h products sense)

/-- **Refusals are exact and without effect.** Whatever calls have been made before, the next one is refused
for the first of its faults and for nothing else, and otherwise does what it asks for. A refused call leaves
the draft as it was, so that all that comes later is answered, and ends, as it would without that call. A
draft is without an objective, and cannot be finished, until one has been granted. -/
theorem refused_exactly (before : List (Call K)) :
    let d := (dialogue empty before).2
    (∀ call, d.Dependable call (call.edit.carryOut d).1 (call.edit.carryOut d).2) ∧
      (∀ call later, (∃ e, d.Refused call e) →
        (dialogue empty (before ++ call :: later)).2 = (dialogue empty (before ++ later)).2 ∧
          (dialogue empty (before ++ call :: later)).1.eraseIdx before.length =
            (dialogue empty (before ++ later)).1) ∧
      ∀ e, d.finish = .error e ↔
        e = .missingObjective ∧
          ∀ products sense, (.pursue products sense, .ok ()) ∉ before.zip (dialogue empty before).1 := by
  intro d
  have hd : d.WellFormed := by
    rw [show d = after before from dialogue_snd empty before]
    exact wellFormed_after before
  refine ⟨hd.dependable, fun call later ⟨e, he⟩ => ?_, fun e => ?_⟩
  · have hcall := dialogue_cons_of_refused d (hd.attempt_eq_error_iff.mpr he) later
    rw [dialogue_append, dialogue_append, hcall]
    refine ⟨rfl, ?_⟩
    rw [List.eraseIdx_append_of_length_le (length_dialogue _ _).le, length_dialogue, Nat.sub_self]
    rfl
  · rw [← objective?_dialogue_eq_none_iff, finish]
    split
    · next hnone => simp [d, hnone, eq_comm]
    · next o ho => simp [d, ho]

/-- Calls after which `cap` is taken and `open` is not. -/
def capped : List (Call Float) :=
  [.declare "x" .nonNegativeReals, .constrain "cap" [("x", 1)] .le 4]

/-- A call with several faults, of which the name `y` is the first. -/
def faulty : Call Float :=
  .constrain "open" [("x", 1), ("y", 2), ("z", 3)] .le (1 / 0)

theorem refused_exactly_capped :
    (after capped).Refused faulty (.unknownVariable "y" (.constraint "open")) ∧
      (dialogue empty (capped ++ faulty :: [.constrain "open" [("x", 1)] .le 4])).2 =
        (dialogue empty (capped ++ [.constrain "open" [("x", 1)] .le 4])).2 ∧
      (dialogue empty (capped ++ faulty :: [.constrain "open" [("x", 1)] .le 4])).1.eraseIdx 2 =
        (dialogue empty (capped ++ [.constrain "open" [("x", 1)] .le 4])).1 :=
  have hrefused : (dialogue empty capped).2.Refused faulty (.unknownVariable "y" (.constraint "open")) :=
    (wellFormed_after capped).attempt_eq_error_iff.mp (by decide +kernel)
  ⟨hrefused, (refused_exactly capped).2.1 faulty _ ⟨_, hrefused⟩⟩

end LinearProgram.Draft
