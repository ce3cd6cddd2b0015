import LinearProgram.Json.Number

/-!
# JSON documents

A document is a value of `Json`; members of an object keep their order. It is written compactly, or
with two spaces of indentation and one item a line. Both ways write an empty list as `[]` and escape in
strings only what JSON requires: quotes, backslashes and controls.
-/

namespace LinearProgram

/-- A JSON value, with the order of an object's members. -/
inductive Json where
  | number (x : Float)
  | string (s : String)
  | list (items : List Json)
  | object (members : List (String × Json))

namespace Json

/-! ## Strings -/

/-- One character of a string between its quotes. -/
def escapeChar (c : Char) : List Char :=
  if c = '"' then ['\\', '"']
  else if c = '\\' then ['\\', '\\']
  else if c = '\x08' then ['\\', 'b']
  else if c = '\x0c' then ['\\', 'f']
  else if c = '\n' then ['\\', 'n']
  else if c = '\r' then ['\\', 'r']
  else if c = '\t' then ['\\', 't']
  else if c.toNat < 0x20 then
    ['\\', 'u', '0', '0', Nat.digitChar (c.toNat / 16), Nat.digitChar (c.toNat % 16)]
  else [c]

/-- A string with its quotes. -/
def stringText (s : String) : String :=
  String.ofList ('"' :: s.toList.flatMap escapeChar ++ ['"'])

/-! ## Compact text -/

mutual
/-- The text without any blank. -/
def compact : Json → String
  | .number x => numberText x
  | .string s => stringText s
  | .list items => "[" ++ compactItems items ++ "]"
  | .object members => "\x7b" ++ compactMembers members ++ "\x7d"

/-- The items of a list with commas between them. -/
def compactItems : List Json → String
  | [] => ""
  | [item] => compact item
  | item :: items => compact item ++ "," ++ compactItems items

/-- The members of an object with commas between them. -/
def compactMembers : List (String × Json) → String
  | [] => ""
  | [(key, value)] => stringText key ++ ":" ++ compact value
  | (key, value) :: members =>
    stringText key ++ ":" ++ compact value ++ "," ++ compactMembers members
end

/-! ## Indented text -/

/-- A line break and the indentation of a level. -/
def newLine (level : Nat) : String :=
  "\n" ++ String.ofList (List.replicate (2 * level) ' ')

mutual
/-- The text with every item on a line of its own, two spaces deeper than what holds it. -/
def indented (level : Nat) : Json → String
  | .number x => numberText x
  | .string s => stringText s
  | .list [] => "[]"
  | .list (item :: items) =>
    "[" ++ newLine (level + 1) ++ indented (level + 1) item ++ indentedItems (level + 1) items
      ++ newLine level ++ "]"
  | .object [] => "\x7b\x7d"
  | .object ((key, value) :: members) =>
    "\x7b" ++ newLine (level + 1) ++ stringText key ++ ": " ++ indented (level + 1) value
      ++ indentedMembers (level + 1) members ++ newLine level ++ "\x7d"

/-- The items after the first, each after a comma and a line break. -/
def indentedItems (level : Nat) : List Json → String
  | [] => ""
  | item :: items => "," ++ newLine level ++ indented level item ++ indentedItems level items

/-- The members after the first, each after a comma and a line break. -/
def indentedMembers (level : Nat) : List (String × Json) → String
  | [] => ""
  | (key, value) :: members =>
    "," ++ newLine level ++ stringText key ++ ": " ++ indented level value
      ++ indentedMembers level members
end

end Json

end LinearProgram
