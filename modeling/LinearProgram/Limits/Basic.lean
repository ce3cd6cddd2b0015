import LinearProgram.Scalar
import LinearProgram.Decimal.Plain
import LinearProgram.Host.File
import LinearProgram.Json.Scanner
import LinearProgram.Json.Value
import LinearProgram.Text.Quoted

/-!
# Limits on a solve

A solve may be stopped early: at a relative gap between the incumbent and the best bound, or after a
number of seconds. A limit that is not set leaves the solver to its default. Limits that come from
outside have to be finite and not negative.
-/

namespace LinearProgram

/-- The limits there are. -/
inductive Limit where
  | gap
  | time
  deriving DecidableEq, Repr

namespace Limit

/-- Every limit, in the order in which they are listed. -/
def all : List Limit :=
  [.gap, .time]

/-- The name of a limit in a configuration. -/
def key : Limit → String
  | .gap => "gap-tolerance"
  | .time => "time-limit-seconds"

/-- The limit of that name. -/
def ofKey? (key : String) : Option Limit :=
  all.find? fun l => l.key == key

end Limit

/-- The limits set for one solve. -/
structure Limits (K : Type) where
  gap? : Option K
  time? : Option K
  deriving DecidableEq, Repr

namespace Limits

variable {K : Type}

/-- No limit is set. -/
def unset : Limits K :=
  ⟨none, none⟩

/-- The value of a limit, if it is set. -/
def get? (l : Limits K) : Limit → Option K
  | .gap => l.gap?
  | .time => l.time?

/-- Sets or clears a limit. -/
def put (l : Limits K) (limit : Limit) (value? : Option K) : Limits K :=
  match limit with
  | .gap => { l with gap? := value? }
  | .time => { l with time? := value? }

/-- Setting a limit changes that limit and no other. -/
theorem get?_put (l : Limits K) (limit other : Limit) (value? : Option K) :
    (l.put limit value?).get? other = if other = limit then value? else l.get? other := by
  cases limit <;> cases other <;> rfl

/-- The limits that are set, with their values. -/
def toList (l : Limits K) : List (Limit × K) :=
  Limit.all.filterMap fun limit => (l.get? limit).map (limit, ·)

/-- A limit is listed with its value exactly when it is set to that value. -/
theorem mem_toList {l : Limits K} {limit : Limit} {value : K} :
    (limit, value) ∈ l.toList ↔ l.get? limit = some value := by
  have hall : limit ∈ Limit.all := by cases limit <;> simp [Limit.all]
  simp [toList, hall]

/-- No limit is listed twice. -/
theorem nodup_keys_toList (l : Limits K) : (l.toList.map Prod.fst).Nodup := by
  obtain ⟨gap?, time?⟩ := l
  cases gap? <;> cases time? <;> simp [toList, Limit.all, get?]

/-- Whether no limit is set. -/
def isEmpty (l : Limits K) : Bool :=
  l.toList.isEmpty

/-- The first limit that is not finite or is negative. -/
def violation? [Scalar K] (l : Limits K) : Option (Limit × K) :=
  l.toList.find? fun e => !Scalar.isFinite e.2 || Scalar.lt e.2 0

/-- The limits as a JSON object, which leaves out those that are not set. -/
def toJson (l : Limits Float) : Json :=
  .object (l.toList.map fun e => (e.1.key, .number e.2))

end Limits

/-! ## What can be wrong with limits from outside -/

/-- What was found where something else was expected. -/
inductive Found where
  | null
  | boolean (b : Bool)
  | integer (n : Int)
  | real (x : Float)
  | string (s : String)
  | list
  | object

/-- What was found, in words. -/
def Found.text : Found → String
  | .null => "null"
  | .boolean b => "boolean `" ++ (if b then "true" else "false") ++ "`"
  | .integer n => "integer `" ++ toString n ++ "`"
  | .real x => "floating point `" ++ Json.numberText x ++ "`"
  | .string s => "string " ++ Text.quoted s
  | .list => "sequence"
  | .object => "map"

/-- What is expected at a place of the text. -/
inductive Expected where
  | number
  | limits
  deriving DecidableEq, Repr

/-- What is expected, in words. -/
def Expected.text : Expected → String
  | .number => "f64"
  | .limits => "struct SolveOptions"

/-- How a JSON text can fail to be a set of limits. -/
inductive Mismatch where
  | unknownKey (key : String)
  | duplicateKey (limit : Limit)
  | wrongType (found : Found) (expected : Expected)
  | tooShort (size : Nat)

/-- The mismatch in words. -/
def Mismatch.message : Mismatch → String
  | .unknownKey key =>
    "unknown field `" ++ key ++ "`, expected `" ++ Limit.gap.key ++ "` or `" ++ Limit.time.key
      ++ "`"
  | .duplicateKey limit => "duplicate field `" ++ limit.key ++ "`"
  | .wrongType found expected =>
    "invalid type: " ++ found.text ++ ", expected " ++ expected.text
  | .tooShort size =>
    "invalid length " ++ Decimal.natText size ++ ", expected " ++ Expected.limits.text
      ++ " with 2 elements"

/-- Why limits from outside are refused. -/
inductive LimitsError where
  | unreadable (path : String) (cause : FileError)
  | malformed (cause : Json.SyntaxError)
  | unfit (cause : Mismatch)
  | outOfRange (limit : Limit) (value : Float)

/-- The reason in words. The position in the text, with which a report of faulty JSON ends, is left
out. -/
def LimitsError.message : LimitsError → String
  | .unreadable path cause => "IO error reading " ++ path ++ ": " ++ cause.message
  | .malformed cause => "Invalid solver config: " ++ cause.message
  | .unfit cause => "Invalid solver config: " ++ cause.message
  | .outOfRange limit value =>
    "Invalid value for " ++ limit.key ++ ": " ++ Decimal.plain value
      ++ " (must be finite and non-negative)"

/-- Accepts limits that are finite and not negative. -/
def Limits.check (l : Limits Float) : Except LimitsError Unit :=
  match l.violation? with
  | some (limit, value) => .error (.outOfRange limit value)
  | none => .ok ()

end LinearProgram
