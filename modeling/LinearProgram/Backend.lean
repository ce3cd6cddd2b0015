import LinearProgram.Engine.Solver
import LinearProgram.Simplex.Solver

/-!
# The solvers to choose from
-/

namespace LinearProgram

/-- A solver to choose. -/
inductive Backend where
  /-- The simplex method of this library, which is always there. -/
  | simplex
  /-- The external engine. -/
  | scip
  deriving DecidableEq, Repr

namespace Backend

/-- Every choice. -/
def all : List Backend :=
  [.simplex, .scip]

/-- The choice where none is made. -/
def standard : Backend :=
  .simplex

/-- The name of a choice. -/
def name : Backend → String
  | .simplex => Simplex.solverName
  | .scip => Engine.solverName

/-- The limits that a choice keeps. -/
def honours : Backend → Limit → Bool
  | .simplex => Simplex.honours
  | .scip => Engine.honours

/-- A text with its ASCII letters in lower case. -/
def lowerCase (text : String) : List Char :=
  text.toList.map Char.toLower

/-- The choice of that name, in any case of its letters. -/
def ofName? (text : String) : Option Backend :=
  all.find? fun b => lowerCase b.name == lowerCase text

/-- The refusal of a name that no choice has. -/
def unknownMessage (text : String) : String :=
  "Unknown solver backend: " ++ text

/-- The solver of a choice, at its shipped settings. -/
def solver {m : Type → Type} [Monad m] (host : Host m) : Backend → Solver m Float
  | .simplex => Simplex.solver host .shipped
  | .scip => Engine.solver host none

end Backend

end LinearProgram
