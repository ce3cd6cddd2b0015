import LinearProgram.Decimal.Read

/-!
# The words of a JSON text

Scanners for the pieces that a reader of JSON puts together: blanks, strings, numbers and the words
`null`, `true` and `false`. Each takes the characters still unread and gives what it read and what is
left, or says what is malformed.
-/

namespace LinearProgram.Json

/-- What can be wrong with a text that is not JSON. -/
inductive SyntaxError where
  | listEnds | objectEnds | stringEnds | valueEnds
  | expectedColon | expectedListComma | expectedObjectComma | expectedWord | expectedValue
  | badEscape | badNumber | numberOutOfRange | controlCharacter | keyNotString
  | loneSurrogate | hexEscapeEnds | trailingComma | trailingCharacters
  deriving DecidableEq, Repr

/-- What is wrong, in words. -/
def SyntaxError.message : SyntaxError → String
  | .listEnds => "EOF while parsing a list"
  | .objectEnds => "EOF while parsing an object"
  | .stringEnds => "EOF while parsing a string"
  | .valueEnds => "EOF while parsing a value"
  | .expectedColon => "expected `:`"
  | .expectedListComma => "expected `,` or `]`"
  | .expectedObjectComma => "expected `,` or `\x7d`"
  | .expectedWord => "expected ident"
  | .expectedValue => "expected value"
  | .badEscape => "invalid escape"
  | .badNumber => "invalid number"
  | .numberOutOfRange => "number out of range"
  | .controlCharacter => "control character (\\u0000-\\u001F) found while parsing a string"
  | .keyNotString => "key must be a string"
  | .loneSurrogate => "lone leading surrogate in hex escape"
  | .hexEscapeEnds => "unexpected end of hex escape"
  | .trailingComma => "trailing comma"
  | .trailingCharacters => "trailing characters"

/-- What a scanner gives: the piece read and the characters after it. -/
abbrev Scan (α : Type) := Except SyntaxError (α × List Char)

/-! ## Blanks and words -/

/-- JSON knows four blank characters. -/
def isBlank (c : Char) : Bool :=
  c = ' ' || c = '\t' || c = '\n' || c = '\r'

/-- The text from its first character that is not blank. -/
def skipBlanks (cs : List Char) : List Char :=
  cs.dropWhile isBlank

/-- The rest of a text that starts with the letters of `word`. -/
def scanWord : List Char → List Char → Except SyntaxError (List Char)
  | [], cs => .ok cs
  | _ :: _, [] => .error .valueEnds
  | w :: ws, c :: cs => if w = c then scanWord ws cs else .error .expectedWord

/-! ## Strings -/

/-- The value of a hexadecimal digit. -/
def hexValue? (c : Char) : Option Nat :=
  if '0' ≤ c ∧ c ≤ '9' then some (c.toNat - '0'.toNat)
  else if 'a' ≤ c ∧ c ≤ 'f' then some (c.toNat - 'a'.toNat + 10)
  else if 'A' ≤ c ∧ c ≤ 'F' then some (c.toNat - 'A'.toNat + 10)
  else none

/-- The character that a backslash and a letter stand for. -/
def escaped? : Char → Option Char
  | '"' => some '"'
  | '\\' => some '\\'
  | '/' => some '/'
  | 'b' => some '\x08'
  | 'f' => some '\x0c'
  | 'n' => some '\n'
  | 'r' => some '\r'
  | 't' => some '\t'
  | _ => none

/-- Where the scanner stands inside a string. A character beyond U+FFFF is escaped as two code units;
`lead` holds the first of them once it is complete. -/
inductive StringState where
  /-- Between characters. -/
  | plain
  /-- After a first code unit, before the backslash of the second one. -/
  | afterLead (lead : Nat)
  /-- After a backslash. -/
  | escape (lead : Option Nat)
  /-- Inside four hexadecimal digits: how many are owed, and the value of those read. -/
  | hex (lead : Option Nat) (owed : Nat) (value : Nat)

/-- A complete code unit: a character, or the first half of one. -/
def codeUnit (lead : Option Nat) (unit : Nat) :
    Except SyntaxError (Option Char × StringState) :=
  let isTrail := 0xDC00 ≤ unit ∧ unit ≤ 0xDFFF
  match lead with
  | some first =>
    if isTrail then
      .ok (some (Char.ofNat (0x10000 + (first - 0xD800) * 0x400 + (unit - 0xDC00))), .plain)
    else .error .loneSurrogate
  | none =>
    if isTrail then .error .loneSurrogate
    else if 0xD800 ≤ unit ∧ unit ≤ 0xDBFF then .ok (none, .afterLead unit)
    else .ok (some (Char.ofNat unit), .plain)

/-- One character inside a string, which is not the closing quote: the character it completes, if it
completes one, and where the scanner then stands. -/
def stringStep (state : StringState) (c : Char) : Except SyntaxError (Option Char × StringState) :=
  match state with
  | .plain =>
    if c = '\\' then .ok (none, .escape none)
    else if c.toNat < 0x20 then .error .controlCharacter
    else .ok (some c, .plain)
  | .afterLead lead => if c = '\\' then .ok (none, .escape (some lead)) else .error .hexEscapeEnds
  | .escape lead =>
    if c = 'u' then .ok (none, .hex lead 4 0)
    else if lead.isSome then .error .hexEscapeEnds
    else match escaped? c with
      | some e => .ok (some e, .plain)
      | none => .error .badEscape
  | .hex lead owed value =>
    match hexValue? c with
    | none => .error .badEscape
    | some digit =>
      if owed ≤ 1 then codeUnit lead (16 * value + digit)
      else .ok (none, .hex lead (owed - 1) (16 * value + digit))

/-- The characters of a string from where the scanner stands up to the closing quote. -/
def scanStringFrom (state : StringState) : List Char → Scan (List Char)
  | [] => .error .stringEnds
  | c :: cs =>
    match state, c with
    | .plain, '"' => .ok ([], cs)
    | _, _ =>
      match stringStep state c with
      | .error e => .error e
      | .ok (done?, next) =>
        match scanStringFrom next cs with
        | .error e => .error e
        | .ok (chars, rest) => .ok (done?.toList ++ chars, rest)

/-- The string whose opening quote has been read. -/
def scanString (cs : List Char) : Scan String :=
  match scanStringFrom .plain cs with
  | .error e => .error e
  | .ok (chars, rest) => .ok (String.ofList chars, rest)

/-! ## Numbers -/

/-- A number as its text gives it: an integer of at most 64 bits, or a double. -/
inductive Number where
  | integer (n : Int)
  | real (x : Float)

namespace Number

/-- A significand holds digits as long as it fits into 64 bits. -/
def maxSignificand : Nat := Nat.pow 2 64 - 1

/-- The magnitude of the least negative integer. -/
def maxNegative : Nat := Nat.pow 2 63

/-- Beyond this size an exponent is only known to be out of range. -/
def maxExponent : Nat := Nat.pow 2 31 - 1

/-- The greatest power of ten by which a double is scaled at once. -/
def maxPower : Nat := 308

/-- `10 ^ n` as a double. -/
def powerOfTen (n : Nat) : Float :=
  Float.ofScientific 1 false n

/-- `x / 10 ^ n`, in steps of at most `maxPower`, until nothing but zero is left. -/
def scaleDown (x : Float) (n : Nat) : Float :=
  if _h : n ≤ maxPower then x / powerOfTen n
  else if x == 0.0 then x
  else scaleDown (x / powerOfTen maxPower) (n - maxPower)
termination_by n
decreasing_by simp only [maxPower] at *; omega

/-- `significand · 10 ^ exponent`: the significand as a double, multiplied or divided by a power of ten
as a double. A result out of the range of doubles is refused. -/
def scale (significand : Nat) (exponent : Int) : Except SyntaxError Float :=
  let x := Float.ofNat significand
  if exponent < 0 then .ok (scaleDown x exponent.natAbs)
  else if exponent.toNat ≤ maxPower then
    let y := x * powerOfTen exponent.toNat
    if y.isInf then .error .numberOutOfRange else .ok y
  else if x == 0.0 then .ok x
  else .error .numberOutOfRange

/-- Digits taken into a significand while it fits; gives the significand, how many digits were taken
and those that were not. -/
def takeDigits (significand taken : Nat) : List Char → Nat × Nat × List Char
  | [] => (significand, taken, [])
  | c :: cs =>
    let next := 10 * significand + Decimal.digitValue c
    if next ≤ maxSignificand then takeDigits next (taken + 1) cs else (significand, taken, c :: cs)

/-- What follows the mantissa: an exponent, if there is one. A first component of `none` stands for an
exponent too large to be held, with its sign. -/
def scanExponent (cs : List Char) : Scan (Option Int × Bool) :=
  match cs with
  | e :: rest =>
    if e = 'e' ∨ e = 'E' then
      let (negative, tail) := Decimal.splitSign rest
      let (digits, after) := Decimal.splitDigits tail
      let value := Decimal.ofDigits digits
      if digits.isEmpty then .error (if tail.isEmpty then .valueEnds else .badNumber)
      else if maxExponent < value then .ok ((none, negative), after)
      else .ok ((some (if negative then -(value : Int) else value), negative), after)
    else .ok ((some 0, false), cs)
  | [] => .ok ((some 0, false), [])

/-- The double with the given significand, exponent of its last digit and exponent part. -/
def combine (significand : Nat) (exponent : Int) : Option Int × Bool → Except SyntaxError Float
  | (some e, _) => scale significand (exponent + e)
  | (none, negative) =>
    if significand ≠ 0 ∧ !negative then .error .numberOutOfRange else .ok 0.0

/-- Whether the text goes on as a real number does. -/
def isRealMark (c : Char) : Bool :=
  c = '.' || c = 'e' || c = 'E'

/-- The rest of a real number after its integral digits. -/
def scanReal (significand : Nat) (exponent : Int) (cs : List Char) : Scan Float :=
  let scanTail := fun (significand : Nat) (exponent : Int) (cs : List Char) =>
    match scanExponent cs with
    | .error e => .error e
    | .ok (e, rest) =>
      match combine significand exponent e with
      | .error err => .error err
      | .ok x => .ok (x, rest)
  match cs with
  | '.' :: after =>
    let (digits, rest) := Decimal.splitDigits after
    let (significand', taken, _) := takeDigits significand 0 digits
    if digits.isEmpty then .error (if rest.isEmpty then .valueEnds else .badNumber)
    else scanTail significand' (exponent - taken) rest
  | _ => scanTail significand exponent cs

/-- A number without its sign: no leading zero before another digit, then an integer if it fits and
neither point nor exponent follow, else a double. -/
def scan (negative : Bool) (cs : List Char) : Scan Number :=
  let (digits, rest) := Decimal.splitDigits cs
  let (significand, _, dropped) := takeDigits 0 0 digits
  let sign := fun (x : Float) => Number.real (if negative then -x else x)
  match digits with
  | [] => .error (if rest.isEmpty then .valueEnds else .badNumber)
  | '0' :: _ :: _ => .error .badNumber
  | _ =>
    if dropped.isEmpty && !(rest.head?.any isRealMark) then
      if !negative then .ok (.integer significand, rest)
      else if significand = 0 ∨ maxNegative < significand then
        .ok (sign (Float.ofNat significand), rest)
      else .ok (.integer (-(significand : Int)), rest)
    else match scanReal significand dropped.length rest with
      | .error e => .error e
      | .ok (x, rest) => .ok (sign x, rest)

/-- The double a number stands for. -/
def toFloat : Number → Float
  | .integer n => if n < 0 then -(Float.ofNat n.natAbs) else Float.ofNat n.toNat
  | .real x => x

end Number

end LinearProgram.Json
