import Mathlib
import LinearProgram.Decimal.Read
import LinearProgram.Engine.ModelFile
import LinearProgram.Model.Dense
import LinearProgram.Proofs.Decimal.Digits
import LinearProgram.Proofs.Double.Sign
import LinearProgram.Text.Lines

/-!
# Reading an LP file

A reader of LP files knows nothing of the model behind a file. It takes the words of each line, and the
lines say one after the other: the sense, the objective, one constraint each, and for every variable that
it is not negative. Names give positions, and every product adds its coefficient to the column that it
names. The lemmas here say what the reader makes of a text, one kind of line at a time.
-/

namespace LinearProgram

/-- The program under the names that positions give: an `x` or a `c` and the position in digits. -/
def DenseProgram.positional {K : Type} (p : DenseProgram K) : DenseProgram K where
  names := (List.range p.numVariables).map fun j => "x" ++ Decimal.natText j
  objective := p.objective
  sense := p.sense
  rows := p.rows.zipIdx.map fun r => { r.1 with name := "c" ++ Decimal.natText r.2 }

namespace ModelFile

/-! ## The reader -/

/-- What a line states, in words; a comment states nothing. -/
def statement? (line : List Char) : Option (List String) :=
  if line.head? = some '\\' then none else some ((Text.words line).map String.ofList)

/-- Whether the word for a sign is a minus. -/
def minus? (word : String) : Option Bool :=
  if word = "+" then some false else if word = "-" then some true else none

/-- The position of the variable that a word names. -/
def column? (word : String) : Option ℕ :=
  match word.toList with
  | 'x' :: digits =>
    if digits ≠ [] ∧ digits.all Char.isDigit then some (Decimal.ofDigits digits) else none
  | _ => none

/-- The relation that a word stands for. -/
def relation? (word : String) : Option Relation :=
  if word = "<=" then some .le
  else if word = ">=" then some .ge
  else if word = "=" then some .eq
  else none

/-- The sense that a word stands for. -/
def sense? (word : String) : Option Sense :=
  if word = "Maximize" then some .maximize
  else if word = "Minimize" then some .minimize
  else none

/-- The signed products at the front, each with its column, and the words that follow them. -/
def products? : List String → Option (List (ℕ × Float) × List String)
  | sign :: number :: name :: words =>
    match minus? sign with
    | none => some ([], sign :: number :: name :: words)
    | some negative => do
      let magnitude ← Decimal.read? number
      let j ← column? name
      let (products, rest) ← products? words
      return ((j, Double.signed negative magnitude) :: products, rest)
  | words => some ([], words)

/-- The expression at the front and the words that follow it; `0 x0` has no products. -/
def expression? (words : List String) : Option (List (ℕ × Float) × List String) :=
  if words.take 2 = ["0", "x0"] then some ([], words.drop 2) else products? words

/-- Adds every product to its column, from zeros. -/
def columns (n : ℕ) (products : List (ℕ × Float)) : List Float :=
  products.foldl (fun columns p => columns.modify p.1 (· + p.2)) (List.replicate n 0)

/-- The columns of an expression, if it names only the first `n` ones. -/
def columns? (n : ℕ) (products : List (ℕ × Float)) : Option (List Float) :=
  if ∀ p ∈ products, p.1 < n then some (columns n products) else none

/-- The row that a constraint's words stand for at position `i`. -/
def row? (n i : ℕ) : List String → Option (DenseRow Float)
  | label :: words => do
    let (products, rest) ← expression? words
    match rest with
    | [relation, bound] =>
      if label = "c" ++ Decimal.natText i ++ ":" then
        return ⟨"c" ++ Decimal.natText i, ← columns? n products, ← relation? relation,
          ← Decimal.read? bound⟩
      else none
    | _ => none
  | [] => none

/-- The rows from position `i` on. -/
def rows? (n : ℕ) : ℕ → List (List String) → Option (List (DenseRow Float))
  | _, [] => some []
  | i, words :: statements => do return (← row? n i words) :: (← rows? n (i + 1) statements)

/-- The objective that words stand for. -/
def objective? (n : ℕ) (words : List String) : Option (List Float) := do
  let (products, rest) ← expression? words
  if rest = [] then columns? n products else none

/-- The words that say of the variable at position `j` that it is not negative. -/
def nonNegative (j : ℕ) : List String :=
  ["x" ++ Decimal.natText j, ">=", "0"]

/-- The statements of a file by what they are about. -/
structure Sections where
  sense : String
  objective : List String
  rows : List (List String)
  bounds : List (List String)

/-- The statements of the sections in the order of a file, with the words that separate the sections. -/
def Sections.statements (s : Sections) : List (List String) :=
  [[s.sense], "obj:" :: s.objective, ["Subject", "To"]] ++ s.rows ++ [["Bounds"]] ++ s.bounds ++ [["End"]]

/-- The sections of a file whose statements are given. -/
def sections? : List (List String) → Option Sections
  | [sense] :: ("obj:" :: objective) :: ["Subject", "To"] :: statements => do
    let (rows, afterRows) := statements.span (· ≠ ["Bounds"])
    let (bounds, afterBounds) := (afterRows.drop 1).span (· ≠ ["End"])
    if afterRows ≠ [] ∧ afterBounds = [["End"]] then return ⟨sense, objective, rows, bounds⟩ else none
  | _ => none

/-- The program that the sections stand for. -/
def Sections.program? (s : Sections) : Option (DenseProgram Float) := do
  let n := s.bounds.length
  if s.bounds = (List.range n).map nonNegative then
    return ⟨(List.range n).map fun j => "x" ++ Decimal.natText j, ← objective? n s.objective,
      ← sense? s.sense, ← rows? n 0 s.rows⟩
  else none

/-- The program that a file stands for, if it stands for one. -/
def read? (text : String) : Option (DenseProgram Float) := do
  let s ← sections? ((Text.lines text.toList).filterMap statement?)
  s.program?

/-! ## Words it knows -/

@[simp]
theorem minus?_sign (negative : Bool) : minus? (if negative then "-" else "+") = some negative := by
  cases negative <;> decide

@[simp]
theorem sense?_senseWord (sense : Sense) : sense? (senseWord sense) = some sense := by
  cases sense <;> decide

@[simp]
theorem relation?_relationSign (relation : Relation) : relation? (relationSign relation) = some relation := by
  cases relation <;> decide

theorem toList_columnName (j : ℕ) : (columnName j).toList = 'x' :: Nat.toDigits 10 j := by
  rw [columnName, String.toList_append, Decimal.toList_natText]
  rfl

/-- The name of a variable gives back its position. -/
@[simp]
theorem column?_columnName (j : ℕ) : column? (columnName j) = some j := by
  have hdigits : Nat.toDigits 10 j ≠ [] ∧ (Nat.toDigits 10 j).all Char.isDigit = true :=
    ⟨Nat.toDigits_ne_nil, List.all_eq_true.mpr fun _ hc => Decimal.isDigit_of_mem_toDigits hc⟩
  simp only [column?, toList_columnName]
  rw [if_pos hdigits, Decimal.ofDigits_toDigits]

/-- Different variables have different names. -/
theorem columnName_injective : Function.Injective columnName := fun i j h => by
  have hcolumn := congrArg column? h
  rw [column?_columnName, column?_columnName] at hcolumn
  exact Option.some.inj hcolumn

/-! ## Sections -/

/-- A section ends at the first statement that ends it. -/
theorem span_append_cons {last : List String} {lines rest : List (List String)}
    (h : ∀ words ∈ lines, words ≠ last) :
    (lines ++ last :: rest).span (fun words => decide (words ≠ last)) = (lines, last :: rest) := by
  have hsection : ∀ words ∈ lines, decide (words ≠ last) = true := fun w hw => decide_eq_true (h w hw)
  rw [List.span_eq_takeWhile_dropWhile, List.takeWhile_append_of_pos hsection,
    List.dropWhile_append_of_pos hsection]
  simp

/-- Sections in which no statement ends the section are found again. -/
theorem sections?_statements {s : Sections} (hrows : ∀ words ∈ s.rows, words ≠ ["Bounds"])
    (hbounds : ∀ words ∈ s.bounds, words ≠ ["End"]) : sections? s.statements = some s := by
  simp only [Sections.statements, List.cons_append, List.nil_append, List.append_assoc, sections?,
    span_append_cons hrows, List.drop_succ_cons, List.drop_zero, span_append_cons hbounds]
  simp

/-! ## Expressions -/

/-- Fewer than three words are not a product. -/
theorem products?_of_length_lt {words : List String} (h : words.length < 3) :
    products? words = some ([], words) := by
  match words with
  | [] | [_] | [_, _] => rfl
  | _ :: _ :: _ :: _ => exact absurd h (by simp)

/-- A signed product adds its coefficient, with the sign, to its column. -/
theorem products?_cons {sign number name : String} {negative : Bool} {magnitude : Float} {j : ℕ}
    {words rest : List String} {products : List (ℕ × Float)} (hsign : minus? sign = some negative)
    (hnumber : Decimal.read? number = some magnitude) (hname : column? name = some j)
    (hwords : products? words = some (products, rest)) :
    products? (sign :: number :: name :: words) =
      some ((j, Double.signed negative magnitude) :: products, rest) := by
  simp [products?, hsign, hnumber, hname, hwords]

end ModelFile

end LinearProgram
