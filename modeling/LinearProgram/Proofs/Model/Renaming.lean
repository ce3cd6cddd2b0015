import Mathlib
import LinearProgram.Proofs.Model.Additions

/-!
# Renamed constructions

A renaming gives every variable and every constraint another identifier. As long as no two of the
identifiers that calls mention become one, a draft cannot tell the renamed calls from the original ones:
the same of them are granted, and the draft that they lead to is the renamed draft (`attempt_rename`,
`granted_rename`). The granted calls mention the identifiers of the finished model and no others, so that
for them it is enough that the identifiers of the model stay apart (`finish_rename`).
-/

namespace LinearProgram

variable {K : Type}

/-- New identifiers for variables and for constraints. -/
structure Renaming where
  vars : String → String
  constraints : String → String

/-! ## What is renamed -/

def Term.rename (ρ : String → String) (t : Term K) : Term K :=
  ⟨ρ t.name, t.coefficient⟩

def LinearExpr.rename (ρ : String → String) (e : LinearExpr K) : LinearExpr K :=
  ⟨e.terms.map (Term.rename ρ)⟩

def Variable.rename (ρ : String → String) (v : Variable) : Variable :=
  ⟨ρ v.id, v.domain⟩

def Constraint.rename (r : Renaming) (c : Constraint K) : Constraint K :=
  ⟨r.constraints c.id, c.expression.rename r.vars, c.relation, c.bound⟩

def Objective.rename (ρ : String → String) (o : Objective K) : Objective K :=
  ⟨o.expression.rename ρ, o.sense⟩

/-- The model with every identifier renamed, where it is declared and where it is mentioned. -/
def Model.rename (r : Renaming) (m : Model K) : Model K where
  vars := m.vars.map (Variable.rename r.vars)
  constraints := m.constraints.map (Constraint.rename r)
  objective := m.objective.rename r.vars

/-- The draft with every identifier renamed. -/
def Draft.rename (r : Renaming) (d : Draft K) : Draft K where
  vars := d.vars.map (Variable.rename r.vars)
  index := d.index.map fun p => (r.vars p.1, p.2)
  constraints := d.constraints.map (Constraint.rename r)
  reserved := d.reserved.map r.constraints
  objective? := d.objective?.map (Objective.rename r.vars)

/-- The call with every identifier renamed. -/
def Draft.Call.rename (r : Renaming) : Draft.Call K → Draft.Call K
  | .declare id domain => .declare (r.vars id) domain
  | .constrain id products relation bound =>
    .constrain (r.constraints id) (products.map fun p => (r.vars p.1, p.2)) relation bound
  | .pursue products sense => .pursue (products.map fun p => (r.vars p.1, p.2)) sense

/-- Different identifiers of the model stay different. -/
structure Renaming.KeepsApart (r : Renaming) (m : Model K) : Prop where
  vars : Set.InjOn r.vars {id | id ∈ m.vars.map Variable.id}
  constraints : Set.InjOn r.constraints {id | id ∈ m.constraints.map Constraint.id}

/-! ## Expressions -/

section Expression

variable {ρ : String → String} {V : Set String}

theorem LinearExpr.names_rename (e : LinearExpr K) : (e.rename ρ).names = e.names.map ρ := by
  simp only [names, rename, List.map_map]
  rfl

@[simp]
theorem LinearExpr.isFinite_rename [Scalar K] (e : LinearExpr K) :
    (e.rename ρ).isFinite = e.isFinite := by
  simp only [isFinite, rename, List.all_map]
  rfl

/-- Two names are merged after a renaming exactly if they were before. -/
theorem Term.merge_rename [Add K] (hρ : Set.InjOn ρ V) {name : String} (hname : name ∈ V) (c : K)
    {ts : List (Term K)} (hts : ∀ t ∈ ts, t.name ∈ V) :
    merge (ρ name) c (ts.map (Term.rename ρ)) = (merge name c ts).map (Term.rename ρ) := by
  induction ts with
  | nil => rfl
  | cons t ts ih =>
    obtain ⟨ht, hts⟩ := List.forall_mem_cons.mp hts
    have hiff : (t.rename ρ).name = ρ name ↔ t.name = name := hρ.eq_iff ht hname
    rw [List.map_cons, merge, merge]
    by_cases h : t.name = name
    · rw [if_pos h, if_pos (hiff.mpr h)]
      rfl
    · rw [if_neg h, if_neg (mt hiff.mp h), ih hts]
      rfl

/-- A sum of products mentions the names of the products. -/
theorem LinearExpr.mem_names_ofList [Add K] {products : List (String × K)} {name : String} :
    name ∈ (ofList products).names ↔ name ∈ products.map Prod.fst := by
  have hfold (e : LinearExpr K) :
      name ∈ (products.foldl (fun e p => e.add p.1 p.2) e).names ↔
        name ∈ e.names ∨ name ∈ products.map Prod.fst := by
    induction products generalizing e with
    | nil => simp
    | cons p ps ih =>
      rw [List.foldl_cons, ih, names_add]
      by_cases hp : p.1 ∈ e.names
      · rw [if_pos hp, List.map_cons, List.mem_cons]
        constructor
        · exact fun h => h.imp_right .inr
        · rintro (h | rfl | h)
          exacts [.inl h, .inl hp, .inr h]
      · rw [if_neg hp, List.mem_append, List.mem_singleton, List.map_cons, List.mem_cons, or_assoc]
  rw [ofList, hfold empty]
  simp [empty, names]

theorem LinearExpr.forall_mem_names_ofList [Add K] {products : List (String × K)} {P : String → Prop} :
    (∀ name ∈ (ofList products).names, P name) ↔ ∀ p ∈ products, P p.1 := by
  simp only [mem_names_ofList, List.forall_mem_map]

/-- Renamed products add up to the renamed expression. -/
theorem LinearExpr.ofList_rename [Add K] (hρ : Set.InjOn ρ V) {products : List (String × K)}
    (hproducts : ∀ p ∈ products, p.1 ∈ V) :
    ofList (products.map fun p => (ρ p.1, p.2)) = (ofList products).rename ρ := by
  have hfold (e : LinearExpr K) (he : ∀ name ∈ e.names, name ∈ V) :
      (products.map fun p => (ρ p.1, p.2)).foldl (fun e p => e.add p.1 p.2) (e.rename ρ) =
        (products.foldl (fun e p => e.add p.1 p.2) e).rename ρ := by
    induction products generalizing e with
    | nil => rfl
    | cons p ps ih =>
      obtain ⟨hp, hps⟩ := List.forall_mem_cons.mp hproducts
      have hadd : (e.rename ρ).add (ρ p.1) p.2 = (e.add p.1 p.2).rename ρ :=
        congrArg LinearExpr.mk
          (Term.merge_rename hρ hp p.2 fun t ht => he t.name (List.mem_map_of_mem ht))
      have hnames : ∀ name ∈ (e.add p.1 p.2).names, name ∈ V := by
        intro name hname
        rw [names_add] at hname
        split at hname
        · exact he name hname
        · rcases List.mem_append.mp hname with hname | hname
          · exact he name hname
          · exact List.mem_singleton.mp hname ▸ hp
      rw [List.map_cons, List.foldl_cons, List.foldl_cons, hadd, ih hps _ hnames]
  exact hfold empty (by simp [empty, names])

end Expression

namespace Draft

/-! ## What calls and drafts mention -/

/-- The call mentions variables in `V` and constraints in `C` only. -/
def Call.Within (V C : Set String) : Call K → Prop
  | .declare id _ => id ∈ V
  | .constrain id products _ _ => id ∈ C ∧ ∀ p ∈ products, p.1 ∈ V
  | .pursue products _ => ∀ p ∈ products, p.1 ∈ V

/-- The draft looks up variables in `V` and constraints in `C` only. -/
structure Within (V C : Set String) (d : Draft K) : Prop where
  index : ∀ p ∈ d.index, p.1 ∈ V
  reserved : ∀ id ∈ d.reserved, id ∈ C

variable {V V' C C' : Set String}

theorem Call.Within.mono {call : Call K} (h : call.Within V C) (hV : V ⊆ V') (hC : C ⊆ C') :
    call.Within V' C' := by
  cases call with
  | declare id domain => exact hV h
  | constrain id products relation bound => exact ⟨hC h.1, fun p hp => hV (h.2 p hp)⟩
  | pursue products sense => exact fun p hp => hV (h p hp)

theorem Within.empty : (empty : Draft K).Within V C :=
  ⟨fun _ h => absurd h List.not_mem_nil, fun _ h => absurd h List.not_mem_nil⟩

variable [Scalar K] {d d' : Draft K} {call : Call K}

theorem Within.attempt (hd : d.Within V C) (hcall : call.Within V C) (h : call.attempt d = .ok d') :
    d'.Within V C := by
  cases call with
  | declare id domain =>
    obtain ⟨-, rfl⟩ := declare_eq_ok.mp h
    exact ⟨List.forall_mem_cons.mpr ⟨hcall, hd.index⟩, hd.reserved⟩
  | constrain id products relation bound =>
    obtain ⟨-, -, rfl⟩ := constrain_eq_ok.mp h
    exact ⟨hd.index, List.forall_mem_cons.mpr ⟨hcall.1, hd.reserved⟩⟩
  | pursue products sense =>
    obtain ⟨-, rfl⟩ := pursue_eq_ok.mp h
    exact ⟨hd.index, hd.reserved⟩

/-- A granted call mentions what is declared once it is made, and nothing else. -/
theorem WellFormed.within_of_attempt (hd : d.WellFormed) (h : call.attempt d = .ok d') :
    call.Within {id | id ∈ d'.vars.map Variable.id} {id | id ∈ d'.constraints.map Constraint.id} := by
  have hproducts {place : Place} {products : List (String × K)} {finite : Bool}
      (hcheck : d.check place (LinearExpr.ofList products) finite = .ok ()) :
      ∀ p ∈ products, p.1 ∈ d.vars.map Variable.id :=
    LinearExpr.forall_mem_names_ofList.mp (hd.over_of_check_eq_ok hcheck).1.declared
  cases call with
  | declare id domain =>
    obtain ⟨-, rfl⟩ := declare_eq_ok.mp h
    simp [Call.Within]
  | constrain id products relation bound =>
    obtain ⟨-, hcheck, rfl⟩ := constrain_eq_ok.mp h
    exact ⟨by simp, hproducts hcheck⟩
  | pursue products sense =>
    obtain ⟨hcheck, rfl⟩ := pursue_eq_ok.mp h
    exact hproducts hcheck

/-- The granted calls of a run mention what is declared at its end, and nothing else. -/
theorem within_of_mem_granted (hd : d.WellFormed) {calls : List (Call K)} (h : call ∈ granted d calls) :
    call.Within {id | id ∈ (calls.foldl Call.perform d).vars.map Variable.id}
      {id | id ∈ (calls.foldl Call.perform d).constraints.map Constraint.id} := by
  induction calls generalizing d with
  | nil => exact absurd h List.not_mem_nil
  | cons first calls ih =>
    rw [granted] at h
    rw [List.foldl_cons]
    cases hfirst : first.attempt d with
    | error e =>
      rw [hfirst] at h
      rw [perform_of_error hfirst]
      exact ih hd h
    | ok d' =>
      rw [hfirst] at h
      rw [perform_of_ok hfirst]
      rcases List.mem_cons.mp h with rfl | h
      · obtain ⟨hvars, hconstraints, -⟩ := added_of_run d' calls
        refine (hd.within_of_attempt hfirst).mono ?_ ?_
        · rw [hvars]
          simp +contextual
        · rw [hconstraints]
          simp +contextual
      · exact ih (hd.attempt hfirst) h

/-! ## A renamed call -/

variable {r : Renaming} (hV : Set.InjOn r.vars V) (hC : Set.InjOn r.constraints C)

omit [Scalar K] in
include hV in
theorem declares_rename (hd : d.Within V C) {id : String} (hid : id ∈ V) :
    (d.rename r).declares (r.vars id) = d.declares id := by
  have hlookup (index : List (String × ℕ)) (hindex : ∀ p ∈ index, p.1 ∈ V) :
      (index.map fun p => (r.vars p.1, p.2)).lookup (r.vars id) = index.lookup id := by
    induction index with
    | nil => rfl
    | cons p ps ih =>
      obtain ⟨hp, hps⟩ := List.forall_mem_cons.mp hindex
      have hbeq : (r.vars id == r.vars p.1) = (id == p.1) := by
        rw [Bool.eq_iff_iff, beq_iff_eq, beq_iff_eq, hV.eq_iff hid hp]
      rw [List.map_cons, List.lookup_cons, List.lookup_cons, hbeq, ih hps]
  rw [declares, declares, indexOf?, indexOf?, rename, hlookup d.index hd.index]

omit [Scalar K] in
include hC in
theorem reserves_rename (hd : d.Within V C) {id : String} (hid : id ∈ C) :
    (d.rename r).reserves (r.constraints id) = d.reserves id := by
  rw [reserves, reserves, Bool.eq_iff_iff, List.contains_iff_mem, List.contains_iff_mem]
  constructor
  · intro h
    obtain ⟨id', hid', heq⟩ := List.mem_map.mp h
    exact hC (hd.reserved id' hid') hid heq ▸ hid'
  · exact List.mem_map_of_mem

include hV in
theorem check_rename (hd : d.Within V C) {e : LinearExpr K} (he : ∀ name ∈ e.names, name ∈ V)
    (place place' : Place) (finite : Bool) :
    (d.rename r).check place' (e.rename r.vars) finite = .ok () ↔ d.check place e finite = .ok () := by
  rw [check_eq_ok, check_eq_ok, LinearExpr.names_rename, List.forall_mem_map, LinearExpr.isFinite_rename]
  refine and_congr_left' (forall₂_congr fun name hname => ?_)
  rw [declares_rename hV hd (he name hname)]

include hV hC in
/-- A renamed call on the renamed draft is granted exactly if the call is on the draft, and then leads to
the renamed draft. -/
theorem attempt_rename (hd : d.Within V C) (hcall : call.Within V C) {e : Draft K} :
    (call.rename r).attempt (d.rename r) = .ok e ↔ ∃ d', call.attempt d = .ok d' ∧ d'.rename r = e := by
  cases call with
  | declare id domain =>
    have hrenamed : ({ d with
        vars := d.vars ++ [⟨id, domain⟩]
        index := (id, d.vars.length) :: d.index } : Draft K).rename r =
        { d.rename r with
          vars := (d.rename r).vars ++ [⟨r.vars id, domain⟩]
          index := (r.vars id, (d.rename r).vars.length) :: (d.rename r).index } := by
      simp [rename, Variable.rename]
    simp only [Call.rename, Call.attempt, declare_eq_ok]
    rw [declares_rename hV hd hcall, ← hrenamed]
    simp only [and_assoc, exists_and_left, exists_eq_left']
  | constrain id products relation bound =>
    have hsum := LinearExpr.ofList_rename hV hcall.2
    have hnames := LinearExpr.forall_mem_names_ofList.mpr hcall.2
    have hrenamed : ({ d with
        constraints := d.constraints ++ [⟨id, .ofList products, relation, bound⟩]
        reserved := id :: d.reserved } : Draft K).rename r =
        { d.rename r with
          constraints := (d.rename r).constraints ++
            [⟨r.constraints id, (LinearExpr.ofList products).rename r.vars, relation, bound⟩]
          reserved := r.constraints id :: (d.rename r).reserved } := by
      simp [rename, Constraint.rename]
    simp only [Call.rename, Call.attempt, constrain_eq_ok]
    rw [hsum, reserves_rename hC hd hcall.1, check_rename hV hd hnames (.constraint id), ← hrenamed]
    simp only [and_assoc, exists_and_left, exists_eq_left']
  | pursue products sense =>
    have hsum := LinearExpr.ofList_rename hV hcall
    have hnames := LinearExpr.forall_mem_names_ofList.mpr hcall
    simp only [Call.rename, Call.attempt, pursue_eq_ok]
    rw [hsum, check_rename hV hd hnames .objective]
    simp only [and_assoc, exists_and_left, exists_eq_left']
    rfl

/-! ## A renamed run -/

include hV hC in
/-- Of renamed calls those are granted that are granted of the calls themselves, and they lead to the
renamed draft. -/
theorem granted_rename (hd : d.Within V C) {calls : List (Call K)} (h : ∀ call ∈ calls, call.Within V C) :
    granted (d.rename r) (calls.map (Call.rename r)) = (granted d calls).map (Call.rename r) ∧
      (calls.map (Call.rename r)).foldl Call.perform (d.rename r) =
        (calls.foldl Call.perform d).rename r := by
  induction calls generalizing d with
  | nil => exact ⟨rfl, rfl⟩
  | cons call calls ih =>
    obtain ⟨hcall, hcalls⟩ := List.forall_mem_cons.mp h
    rw [List.map_cons, List.foldl_cons, List.foldl_cons, granted, granted]
    cases hattempt : call.attempt d with
    | ok d' =>
      have hrenamed := (attempt_rename hV hC hd hcall).mpr ⟨d', hattempt, rfl⟩
      obtain ⟨ihgranted, ihfold⟩ := ih (hd.attempt hcall hattempt) hcalls
      rw [hrenamed, perform_of_ok hrenamed, perform_of_ok hattempt]
      exact ⟨congrArg (_ :: ·) ihgranted, ihfold⟩
    | error e =>
      cases hrenamed : (call.rename r).attempt (d.rename r) with
      | ok e' =>
        obtain ⟨d', hd', -⟩ := (attempt_rename hV hC hd hcall).mp hrenamed
        exact absurd (hattempt.symm.trans hd') (by simp)
      | error e' =>
        rw [perform_of_error hrenamed, perform_of_error hattempt]
        exact ih hd hcalls

/-- Without the refused calls a run goes the same way, and none of its calls is refused. -/
theorem granted_granted (d : Draft K) (calls : List (Call K)) :
    granted d (granted d calls) = granted d calls ∧
      (granted d calls).foldl Call.perform d = calls.foldl Call.perform d := by
  induction calls generalizing d with
  | nil => exact ⟨rfl, rfl⟩
  | cons call calls ih =>
    rw [granted, List.foldl_cons]
    cases hcall : call.attempt d with
    | error e =>
      rw [perform_of_error hcall]
      exact ih d
    | ok d' =>
      obtain ⟨ihgranted, ihfold⟩ := ih d'
      simp only [granted, hcall, List.foldl_cons, perform_of_ok hcall]
      exact ⟨congrArg (call :: ·) ihgranted, ihfold⟩

/-- None of the renamed calls of a construction is refused, and they build the renamed model. -/
theorem finish_rename {calls : List (Call K)} {m : Model K} (hm : (after calls).finish = .ok m)
    (hr : r.KeepsApart m) :
    granted empty ((granted empty calls).map (Call.rename r)) =
        (granted empty calls).map (Call.rename r) ∧
      (after ((granted empty calls).map (Call.rename r))).finish = .ok (m.rename r) := by
  obtain ⟨o, ho, rfl⟩ := finish_eq_ok.mp hm
  have hwithin : ∀ call ∈ granted empty calls, call.Within _ _ :=
    fun call hcall => within_of_mem_granted WellFormed.empty hcall
  obtain ⟨hgranted, hfold⟩ := granted_rename hr.vars hr.constraints Within.empty hwithin
  obtain ⟨hagain, hsame⟩ := granted_granted (empty : Draft K) calls
  rw [hagain] at hgranted
  rw [hsame] at hfold
  refine ⟨hgranted, finish_eq_ok.mpr ⟨o.rename r.vars, ?_, ?_⟩⟩
  · exact (congrArg Draft.objective? hfold).trans (congrArg (Option.map (Objective.rename r.vars)) ho)
  · exact congrArg (fun d => Model.mk d.vars d.constraints (o.rename r.vars)) hfold

end Draft

end LinearProgram
