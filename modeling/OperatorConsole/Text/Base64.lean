/-!
# Base 64

Bytes as text: three bytes make four digits, and the text is padded to whole groups of
four.  Reading is lenient: it takes the digits of both common alphabets and passes over
every other character, the padding included.
-/

namespace OperatorConsole

namespace Base64

/-! ## Writing -/

def digit (n : Nat) : Char :=
  if n < 26 then Char.ofNat (65 + n)
  else if n < 52 then Char.ofNat (71 + n)
  else if n < 62 then Char.ofNat (n - 4)
  else if n = 62 then '+' else '/'

def digits (n : Nat) : List Char :=
  [digit (n / 262144 % 64), digit (n / 4096 % 64), digit (n / 64 % 64), digit (n % 64)]

def encode : List UInt8 -> List Char
  | a :: b :: c :: rest =>
      digits (a.toNat * 65536 + b.toNat * 256 + c.toNat) ++ encode rest
  | [a, b] => (digits (a.toNat * 65536 + b.toNat * 256)).take 3 ++ ['=']
  | [a] => (digits (a.toNat * 65536)).take 2 ++ ['=', '=']
  | [] => []

/-! ## Reading -/

def value? (c : Char) : Option Nat :=
  let n := c.toNat
  if 65 ≤ n && n ≤ 90 then some (n - 65)
  else if 97 ≤ n && n ≤ 122 then some (n - 71)
  else if 48 ≤ n && n ≤ 57 then some (n + 4)
  else if c = '+' || c = '-' then some 62
  else if c = '/' || c = '_' then some 63
  else none

def bytesOf (n : Nat) : List UInt8 :=
  [UInt8.ofNat (n / 65536), UInt8.ofNat (n / 256), UInt8.ofNat n]

/-- The bytes of a list of digits; a last group needs two digits for its first byte. -/
def ofValues : List Nat -> List UInt8
  | a :: b :: c :: d :: rest =>
      bytesOf (a * 262144 + b * 4096 + c * 64 + d) ++ ofValues rest
  | [a, b, c] => (bytesOf (a * 262144 + b * 4096 + c * 64)).take 2
  | [a, b] => (bytesOf (a * 262144 + b * 4096)).take 1
  | _ => []

def decode (text : List Char) : List UInt8 :=
  ofValues (text.filterMap value?)

end Base64

end OperatorConsole
