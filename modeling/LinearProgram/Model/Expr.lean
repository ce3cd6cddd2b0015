import LinearProgram.Scalar

/-!
# Linear expressions

An expression is a list of products of a coefficient and a variable's name. Adding a term for a name
that is already there sums the coefficients, so that an expression built by `add` mentions every name
once, in the order of first mention.
-/

namespace LinearProgram

/-- The product of a coefficient and a variable. -/
structure Term (K : Type) where
  name : String
  coefficient : K
  deriving DecidableEq, Repr

/-- A sum of terms. -/
structure LinearExpr (K : Type) where
  terms : List (Term K)
  deriving DecidableEq, Repr

variable {K : Type}

namespace Term

/-- Adds `c` to the coefficient of the first term of that name, or a new term at the end. -/
def merge [Add K] (name : String) (c : K) : List (Term K) → List (Term K)
  | [] => [⟨name, c⟩]
  | t :: ts =>
    if t.name = name then ⟨t.name, t.coefficient + c⟩ :: ts else t :: merge name c ts

/-- A name that is already there is not added again. -/
theorem map_name_merge [Add K] (name : String) (c : K) (ts : List (Term K)) :
    (merge name c ts).map Term.name =
      if name ∈ ts.map Term.name then ts.map Term.name else ts.map Term.name ++ [name] := by
  induction ts with
  | nil => rfl
  | cons t ts ih =>
    by_cases h : t.name = name
    · simp [merge, h]
    · rw [merge, if_neg h, List.map_cons, ih]
      by_cases hm : name ∈ ts.map Term.name
      · simp [hm]
      · rw [if_neg hm, if_neg (by simpa [Ne.symm h] using hm)]
        rfl

end Term

namespace LinearExpr

/-- The expression without terms. -/
def empty : LinearExpr K :=
  ⟨[]⟩

/-- Adds a product. -/
def add [Add K] (e : LinearExpr K) (name : String) (c : K) : LinearExpr K :=
  ⟨Term.merge name c e.terms⟩

/-- The sum of a list of products. -/
def ofList [Add K] (products : List (String × K)) : LinearExpr K :=
  products.foldl (fun e p => e.add p.1 p.2) empty

/-- The names mentioned, in the order of the terms. -/
def names (e : LinearExpr K) : List String :=
  e.terms.map Term.name

/-- Adding a product adds its name at the end, unless it is already mentioned. -/
theorem names_add [Add K] (e : LinearExpr K) (name : String) (c : K) :
    (e.add name c).names = if name ∈ e.names then e.names else e.names ++ [name] :=
  Term.map_name_merge name c e.terms

/-- Adding a product repeats no name. -/
theorem nodup_names_add [Add K] {e : LinearExpr K} (h : e.names.Nodup) (name : String) (c : K) :
    (e.add name c).names.Nodup := by
  rw [names_add]
  by_cases hm : name ∈ e.names
  · rwa [if_pos hm]
  · rw [if_neg hm]
    refine List.nodup_append.mpr ⟨h, by simp, ?_⟩
    intro a ha b hb hab
    exact hm (List.mem_singleton.mp hb ▸ hab ▸ ha)

/-- The number of terms. -/
def size (e : LinearExpr K) : Nat :=
  e.terms.length

/-- The coefficient of a name; zero when the expression does not mention it. -/
def coefficient [Zero K] (e : LinearExpr K) (name : String) : K :=
  match e.terms.find? (fun t => t.name == name) with
  | some t => t.coefficient
  | none => 0

section Scalar

variable [Scalar K]

/-- Whether every coefficient is finite. -/
def isFinite (e : LinearExpr K) : Bool :=
  e.terms.all fun t => Scalar.isFinite t.coefficient

/-- Whether two expressions have the same names with equal coefficients in the same order. -/
def same (e f : LinearExpr K) : Bool :=
  e.terms.length == f.terms.length &&
    (e.terms.zip f.terms).all fun p =>
      p.1.name == p.2.name && Scalar.eq p.1.coefficient p.2.coefficient

/-- The empty sum: zero, and of the two zeros of `Float` the negative one, which is neutral for
addition. -/
def emptySum : K :=
  -0

/-- The value of the expression. Products are added in the order of the terms, and every term asks
for its variable's value once. -/
def evaluateM {m : Type → Type} [Monad m] (value : String → m K) (e : LinearExpr K) : m K :=
  e.terms.foldlM (fun sum t => do return sum + t.coefficient * (← value t.name)) emptySum

/-- The value of the expression for given values of the variables. -/
def evaluate (value : String → K) (e : LinearExpr K) : K :=
  e.terms.foldl (fun sum t => sum + t.coefficient * value t.name) emptySum

/-- Asking a pure function for the values gives `evaluate`. -/
theorem evaluateM_pure (value : String → K) (e : LinearExpr K) :
    e.evaluateM (m := Id) (fun name => pure (value name)) = pure (e.evaluate value) := by
  simp [evaluateM, evaluate, Id]

end Scalar

end LinearExpr

end LinearProgram
