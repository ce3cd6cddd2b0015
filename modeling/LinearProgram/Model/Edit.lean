import LinearProgram.Model.Draft

/-!
# Editing a draft in place

A caller that holds on to a draft has it changed where it is. An edit makes its checks and its changes one
after the other, and a refusal leaves whatever has been changed before it. An edit that is to leave a
refused draft as it was has to make every check before its first change.
-/

namespace LinearProgram

/-- A computation that changes a draft in place. A refusal ends it where it is. -/
abbrev Edit (K α : Type) : Type :=
  ExceptT ModelError (StateM (Draft K)) α

namespace Edit

variable {K : Type}

/-- What an edit of the draft `d` answers, and the draft that it leaves. -/
def carryOut (d : Draft K) (edit : Edit K Unit) : Except ModelError Unit × Draft K :=
  edit.run.run d

/-- Declares a variable: the next position is indexed, and then the variable takes it. -/
def declare (id : String) (domain : Domain) : Edit K Unit := do
  if (← get).declares id then throw (.duplicateIdentifier id)
  modify fun d => { d with index := (id, d.vars.length) :: d.index }
  modify fun d => { d with vars := d.vars ++ [⟨id, domain⟩] }

/-- Refuses an expression that mentions an undeclared variable. -/
def checkNames (place : Place) (e : LinearExpr K) : Edit K Unit := do
  match (← get).undeclared? e with
  | some name => throw (.unknownVariable name place)
  | none => return ()

section Scalar

variable [Scalar K]

/-- Adds a constraint: its identifier is reserved, and then the constraint is appended. -/
def constrain (id : String) (e : LinearExpr K) (relation : Relation) (bound : K) : Edit K Unit := do
  if (← get).reserves id then throw (.duplicateIdentifier id)
  checkNames (.constraint id) e
  if !e.isFinite || !Scalar.isFinite bound then throw (.nonFiniteCoefficient (.constraint id))
  modify fun d => { d with reserved := id :: d.reserved }
  modify fun d => { d with constraints := d.constraints ++ [⟨id, e, relation, bound⟩] }

/-- Sets the objective, in place of an earlier one. -/
def pursue (e : LinearExpr K) (sense : Sense) : Edit K Unit := do
  checkNames .objective e
  if !e.isFinite then throw (.nonFiniteCoefficient .objective)
  modify fun d => { d with objective? := some ⟨e, sense⟩ }

end Scalar

/-! ## Carrying out an edit -/

variable (d : Draft K)

theorem carryOut_get_bind (next : Draft K → Edit K Unit) :
    carryOut d (get >>= next) = carryOut d (next d) :=
  rfl

/-- The second of two edits is made on what the first one leaves, unless that is refused. -/
theorem carryOut_bind (edit next : Edit K Unit) :
    carryOut d (do edit; next) =
      match carryOut d edit with
      | (.ok (), d') => carryOut d' next
      | (.error e, d') => (.error e, d') := by
  unfold carryOut
  rw [ExceptT.run_bind, StateT.run_bind]
  rcases edit.run.run d with ⟨_ | _, d'⟩ <;> rfl

end Edit

end LinearProgram
