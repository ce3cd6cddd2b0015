/-!
# Columns of a table

A cell is filled up with spaces to its column's width, counted in characters; a longer cell stays as
it is.
-/

namespace LinearProgram.Text

/-- The spaces that fill `text` up to `width` characters. -/
def filler (width : Nat) (text : String) : String :=
  String.ofList (List.replicate (width - text.length) ' ')

/-- A cell at the left of its column. -/
def alignLeft (width : Nat) (text : String) : String :=
  text ++ filler width text

/-- A cell at the right of its column. -/
def alignRight (width : Nat) (text : String) : String :=
  filler width text ++ text

end LinearProgram.Text
