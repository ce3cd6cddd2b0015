import LinearProgram.Text.Visible

/-!
# Quoted text in messages

A message that shows a text puts it between double quotes. The quote and the backslash are escaped,
so are the four controls that have a letter of their own, and every other character that would not be
seen is given by its number in hexadecimal.
-/

namespace LinearProgram.Text

/-- One character between the quotes. -/
def quotedChar (c : Char) : List Char :=
  if c = '"' then ['\\', '"']
  else if c = '\\' then ['\\', '\\']
  else if c = '\x00' then ['\\', '0']
  else if c = '\t' then ['\\', 't']
  else if c = '\r' then ['\\', 'r']
  else if c = '\n' then ['\\', 'n']
  else if isVisible c then [c]
  else ['\\', 'u', '\x7b'] ++ Nat.toDigits 16 c.toNat ++ ['\x7d']

/-- A text between double quotes. -/
def quoted (text : String) : String :=
  String.ofList ('"' :: text.toList.flatMap quotedChar ++ ['"'])

end LinearProgram.Text
