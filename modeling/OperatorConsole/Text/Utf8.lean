import OperatorConsole.Text.Basic

/-!
# Text of bytes

`Utf8.decode` reads bytes as UTF-8 and never fails.  A byte that begins no character
reads as one replacement mark, and so do the bytes of a character that is broken off,
all of them together.

## States

Between two bytes either no character is open or one is, whose first bytes have been
read.  The second byte of some characters has a narrower range than the others, which
keeps out long spellings, halves of pairs and numbers that are too large.
-/

namespace OperatorConsole

namespace Utf8

structure Pending where
  /-- The bits that the bytes so far have given. -/
  bits : Nat
  /-- How many bytes are still to come. -/
  owed : Nat
  /-- The smallest and the greatest byte that may come next. -/
  least : Nat
  greatest : Nat
  deriving DecidableEq, Repr

def begins? (b : Nat) : Option Pending :=
  if 0xC2 ≤ b && b ≤ 0xDF then some ⟨b - 0xC0, 1, 0x80, 0xBF⟩
  else if b = 0xE0 then some ⟨0, 2, 0xA0, 0xBF⟩
  else if b = 0xED then some ⟨0xD, 2, 0x80, 0x9F⟩
  else if 0xE1 ≤ b && b ≤ 0xEF then some ⟨b - 0xE0, 2, 0x80, 0xBF⟩
  else if b = 0xF0 then some ⟨0, 3, 0x90, 0xBF⟩
  else if 0xF1 ≤ b && b ≤ 0xF3 then some ⟨b - 0xF0, 3, 0x80, 0xBF⟩
  else if b = 0xF4 then some ⟨4, 3, 0x80, 0x8F⟩
  else none

def first (b : Nat) : List Char × Option Pending :=
  if b < 0x80 then ([Char.ofNat b], none)
  else
    match begins? b with
    | some p => ([], some p)
    | none => ([Text.replacement], none)

/-- Reads a byte. One that cannot go on with the open character breaks it off and is
read anew. -/
def step : Option Pending -> Nat -> List Char × Option Pending
  | none, b => first b
  | some p, b =>
      if p.least ≤ b && b ≤ p.greatest then
        let bits := p.bits * 64 + (b - 0x80)
        if p.owed ≤ 1 then ([Char.ofNat bits], none)
        else ([], some ⟨bits, p.owed - 1, 0x80, 0xBF⟩)
      else
        let (text, next) := first b
        (Text.replacement :: text, next)

def decodeFrom : Option Pending -> List UInt8 -> List Char
  | none, [] => []
  | some _, [] => [Text.replacement]
  | state, b :: rest =>
      let (text, next) := step state b.toNat
      text ++ decodeFrom next rest

def decode (data : List UInt8) : List Char :=
  decodeFrom none data

end Utf8

end OperatorConsole
