/-!
# UTF-8 with replacement

`decodeLossy` reads bytes as UTF-8 and puts U+FFFD in place of what is not: one for every maximal
piece that begins a character and cannot be completed, and one for every byte that begins none.
-/

namespace LinearProgram.Text

/-- A character whose first bytes have been read: the bits so far, the number of bytes still owed,
and the least and the greatest value of the next one. -/
structure Partial where
  bits : Nat
  owed : Nat
  low : Nat
  high : Nat

/-- What stands in place of bytes that are no character. -/
def replacement : Char :=
  Char.ofNat 0xFFFD

/-- A byte between characters: a character of its own, the first byte of a longer one, or neither.
The bounds on the second byte rule out overlong forms, surrogates and values beyond U+10FFFF. -/
def firstByte (b : Nat) : List Char × Option Partial :=
  if b < 0x80 then ([Char.ofNat b], none)
  else if 0xC2 ≤ b ∧ b ≤ 0xDF then ([], some ⟨b % 0x20, 1, 0x80, 0xBF⟩)
  else if b = 0xE0 then ([], some ⟨0, 2, 0xA0, 0xBF⟩)
  else if b = 0xED then ([], some ⟨0xD, 2, 0x80, 0x9F⟩)
  else if 0xE1 ≤ b ∧ b ≤ 0xEF then ([], some ⟨b % 0x10, 2, 0x80, 0xBF⟩)
  else if b = 0xF0 then ([], some ⟨0, 3, 0x90, 0xBF⟩)
  else if 0xF1 ≤ b ∧ b ≤ 0xF3 then ([], some ⟨b % 0x8, 3, 0x80, 0xBF⟩)
  else if b = 0xF4 then ([], some ⟨4, 3, 0x80, 0x8F⟩)
  else ([replacement], none)

/-- One byte: the characters it settles and the character it leaves unfinished. A byte that cannot
continue the unfinished character ends it with a replacement and counts as a first byte. -/
def nextByte : Option Partial → Nat → List Char × Option Partial
  | none, b => firstByte b
  | some p, b =>
    if p.low ≤ b ∧ b ≤ p.high then
      let bits := p.bits * 0x40 + b % 0x40
      if p.owed ≤ 1 then ([Char.ofNat bits], none) else ([], some ⟨bits, p.owed - 1, 0x80, 0xBF⟩)
    else
      let (settled, open?) := firstByte b
      (replacement :: settled, open?)

/-- The characters of the remaining bytes. -/
def decodeFrom (open? : Option Partial) : List UInt8 → List Char
  | [] => if open?.isSome then [replacement] else []
  | b :: bs =>
    let (settled, next?) := nextByte open? b.toNat
    settled ++ decodeFrom next? bs

/-- The text of a list of bytes, whatever the bytes are. -/
def decodeLossy (bytes : ByteArray) : String :=
  String.ofList (decodeFrom none bytes.data.toList)

end LinearProgram.Text
