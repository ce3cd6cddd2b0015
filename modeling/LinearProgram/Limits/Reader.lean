import LinearProgram.Limits.Basic

/-!
# Reading limits

Limits are read from a JSON object whose keys are names of limits and whose values are numbers or `null`,
or from a list of two such values, the gap first. The text is read once from left to right and the first
fault is the one reported: a key is judged as soon as it has been read, a value as soon as its first
character shows that it is no number. Only a complete and well-formed text has its values judged.
-/

namespace LinearProgram.Limits

open Json (SyntaxError skipBlanks scanWord scanString)

/-- The result of a scanner as that of a reader. -/
def lift {α : Type} : Except SyntaxError α → Except LimitsError α
  | .ok a => .ok a
  | .error e => .error (.malformed e)

/-- What stands at the front of a text where it is not wanted. Only as much is read as is needed to name
it. -/
def found : List Char → Except SyntaxError Found
  | 'n' :: cs => do
    let _ ← scanWord "ull".toList cs
    return .null
  | 't' :: cs => do
    let _ ← scanWord "rue".toList cs
    return .boolean true
  | 'f' :: cs => do
    let _ ← scanWord "alse".toList cs
    return .boolean false
  | '"' :: cs => do
    let (s, _) ← scanString cs
    return .string s
  | '[' :: _ => .ok .list
  | '\x7b' :: _ => .ok .object
  | cs => do
    let (negative, digits) ← match cs with
      | '-' :: digits => pure (true, digits)
      | c :: _ => if c.isDigit then pure (false, cs) else .error .expectedValue
      | [] => .error .expectedValue
    let (n, _) ← Json.Number.scan negative digits
    return match n with
      | .integer n => .integer n
      | .real x => .real x

/-- The refusal of what stands at the front of a text. -/
def refuse {α : Type} (expected : Expected) (cs : List Char) : Except LimitsError α := do
  let what ← lift (found cs)
  .error (.unfit (.wrongType what expected))

/-- A number as the value of a limit. -/
def readNumber (negative : Bool) (cs : List Char) : Except LimitsError (Option Float × List Char) := do
  let (n, rest) ← lift (Json.Number.scan negative cs)
  return (some n.toFloat, rest)

/-- The value of a limit: a number, or `null` for one that is not set. -/
def readValue (cs : List Char) : Except LimitsError (Option Float × List Char) :=
  match skipBlanks cs with
  | [] => .error (.malformed .valueEnds)
  | 'n' :: rest => do
    let rest ← lift (scanWord "ull".toList rest)
    return (none, rest)
  | '-' :: rest => readNumber true rest
  | c :: rest => if c.isDigit then readNumber false (c :: rest) else refuse .number (c :: rest)

/-! ## Objects -/

/-- The string whose opening quote stands at the front. -/
def readKey : List Char → Except SyntaxError (Option String × List Char)
  | '"' :: cs => do
    let (key, rest) ← scanString cs
    return (some key, rest)
  | _ => .error .keyNotString

/-- The next key of an object, or `none` and what follows the object's end. -/
def nextKey (first : Bool) (cs : List Char) : Except SyntaxError (Option String × List Char) :=
  match skipBlanks cs with
  | [] => .error .objectEnds
  | '\x7d' :: rest => .ok (none, rest)
  | ',' :: rest =>
    if first then .error .keyNotString
    else match skipBlanks rest with
      | [] => .error .valueEnds
      | '\x7d' :: _ => .error .trailingComma
      | rest => readKey rest
  | rest => if first then readKey rest else .error .expectedObjectComma

/-- What follows the colon between a key and its value. -/
def afterColon (cs : List Char) : Except SyntaxError (List Char) :=
  match skipBlanks cs with
  | [] => .error .objectEnds
  | ':' :: rest => .ok rest
  | _ => .error .expectedColon

/-- The rest of an object; `unread` holds the limits that no key has named so far. -/
def readMembers (unread : List Limit) (limits : Limits Float) (first : Bool) (cs : List Char) :
    Except LimitsError (Limits Float × List Char) :=
  match lift (nextKey first cs) with
  | .error e => .error e
  | .ok (none, rest) => .ok (limits, rest)
  | .ok (some key, rest) =>
    match Limit.ofKey? key with
    | none => .error (.unfit (.unknownKey key))
    | some limit =>
      if _h : limit ∈ unread then
        match lift (afterColon rest) with
        | .error e => .error e
        | .ok rest =>
          match readValue rest with
          | .error e => .error e
          | .ok (value?, rest) =>
            readMembers (unread.erase limit) (limits.put limit value?) false rest
      else .error (.unfit (.duplicateKey limit))
termination_by unread.length
decreasing_by
  have hpos := List.length_pos_of_mem _h
  rw [List.length_erase_of_mem _h]
  omega

/-! ## Lists -/

/-- The value at position `size` of a list, which has to be there. -/
def readItem (size : Nat) (cs : List Char) : Except LimitsError (Option Float × List Char) :=
  match skipBlanks cs with
  | [] => .error (.malformed .listEnds)
  | ']' :: _ => .error (.unfit (.tooShort size))
  | ',' :: rest =>
    if size = 0 then .error (.malformed .expectedValue)
    else match skipBlanks rest with
      | ']' :: _ => .error (.malformed .trailingComma)
      | rest => readValue rest
  | rest => if size = 0 then readValue rest else .error (.malformed .expectedListComma)

/-- What follows a list that has to end here. -/
def afterList (cs : List Char) : Except SyntaxError (List Char) :=
  match skipBlanks cs with
  | [] => .error .listEnds
  | ']' :: rest => .ok rest
  | ',' :: rest =>
    match skipBlanks rest with
    | ']' :: _ => .error .trailingComma
    | _ => .error .trailingCharacters
  | _ => .error .trailingCharacters

/-- The gap and the time of a list. -/
def readItems (cs : List Char) : Except LimitsError (Limits Float × List Char) := do
  let (gap?, rest) ← readItem 0 cs
  let (time?, rest) ← readItem 1 rest
  let rest ← lift (afterList rest)
  return (⟨gap?, time?⟩, rest)

/-! ## Whole texts -/

/-- The limits at the front of a text. -/
def readFront (cs : List Char) : Except LimitsError (Limits Float × List Char) :=
  match skipBlanks cs with
  | [] => .error (.malformed .valueEnds)
  | '\x7b' :: rest => readMembers Limit.all unset true rest
  | '[' :: rest => readItems rest
  | rest => refuse .limits rest

/-- The limits in a text that holds nothing else, whatever their values. -/
def readAny (text : String) : Except LimitsError (Limits Float) := do
  let (limits, rest) ← readFront text.toList
  match skipBlanks rest with
  | [] => return limits
  | _ => .error (.malformed .trailingCharacters)

/-- The limits in a text. -/
def read (text : String) : Except LimitsError (Limits Float) := do
  let limits ← readAny text
  limits.check
  return limits

/-- The limits in a file. -/
def ofFile (path : String) (contents : Except FileError ByteArray) :
    Except LimitsError (Limits Float) :=
  match textOf contents with
  | .error e => .error (.unreadable path e)
  | .ok text => read text

end LinearProgram.Limits
