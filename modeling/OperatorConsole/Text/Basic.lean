/-!
# Text

Text is handled as a list of characters.  Positions, lengths and widths count
16-bit units: a character outside the basic plane has two of them.

## Halves

A unit that is one half of such a pair may come without the other half.  It is no
character of any script; texts hold it as a private character of the last plane, which
`ofHalf` gives, and `shown` puts a mark in its place.

## Blanks

`isBlank` is the class that trimming removes and that separates words: the
white space and line ends of the Unicode standard, and the byte order mark.

## Case

Names and keywords are compared without regard to case.  `lower` maps a character
to lower case where that gives an ASCII letter, which is all such a comparison
can see.
-/

namespace OperatorConsole

namespace Text

/-! ## Units -/

/-- Whether a 16-bit unit is half of a pair. -/
def isHalfUnit (n : Nat) : Bool :=
  0xD800 ≤ n && n < 0xE000

def ofHalf (n : Nat) : Char :=
  Char.ofNat (0x100000 + n)

def isHalf (c : Char) : Bool :=
  0x100000 ≤ c.toNat && isHalfUnit (c.toNat - 0x100000)

def IsHigh (n : Nat) : Prop :=
  0xD800 ≤ n ∧ n < 0xDC00

def IsLow (n : Nat) : Prop :=
  0xDC00 ≤ n ∧ n < 0xE000

instance (n : Nat) : Decidable (IsHigh n) :=
  inferInstanceAs (Decidable (_ ∧ _))

instance (n : Nat) : Decidable (IsLow n) :=
  inferInstanceAs (Decidable (_ ∧ _))

def ArePair (a b : Char) : Prop :=
  (isHalf a = true ∧ IsHigh (a.toNat - 0x100000)) ∧ isHalf b = true ∧ IsLow (b.toNat - 0x100000)

instance (a b : Char) : Decidable (ArePair a b) :=
  inferInstanceAs (Decidable (_ ∧ _))

def ofHalves (a b : Char) : Char :=
  Char.ofNat (0x10000 + (a.toNat - 0x10D800) * 0x400 + (b.toNat - 0x10DC00))

/-- Whether two characters hold the halves of a character. The private characters that hold halves
are none that a text could mean. -/
def MakeOne (a b : Char) : Prop :=
  ArePair a b ∧ isHalf (ofHalves a b) = false

instance (a b : Char) : Decidable (MakeOne a b) :=
  inferInstanceAs (Decidable (_ ∧ _))

/-- Halves of a character that have come to stand side by side are that character. -/
def joinHalves : List Char -> List Char
  | [] => []
  | [c] => [c]
  | c :: d :: rest =>
      if MakeOne c d then ofHalves c d :: joinHalves rest else c :: joinHalves (d :: rest)

def replacement : Char :=
  Char.ofNat 0xFFFD

def shown (c : Char) : Char :=
  if isHalf c then replacement else c

/-- How many 16-bit units a character takes. -/
def unitWidth (c : Char) : Nat :=
  if c.toNat < 0x10000 || isHalf c then 1 else 2

def width : List Char -> Nat
  | [] => 0
  | c :: rest => unitWidth c + width rest

def unitsOf (c : Char) : List Nat :=
  if c.toNat < 0x10000 then [c.toNat]
  else if isHalf c then [c.toNat - 0x100000]
  else [0xD800 + (c.toNat - 0x10000) / 0x400, 0xDC00 + (c.toNat - 0x10000) % 0x400]

def units (text : List Char) : List Nat :=
  text.flatMap unitsOf

/-- Order by 16-bit units, the first difference deciding. -/
def unitsLe : List Nat -> List Nat -> Bool
  | [], _ => true
  | _ :: _, [] => false
  | a :: as, b :: bs => if a < b then true else if b < a then false else unitsLe as bs

/-! ## Blanks -/

def isBlank (c : Char) : Bool :=
  let n := c.toNat
  (9 ≤ n && n ≤ 13) || n == 0x20 || n == 0xA0 || n == 0x1680 ||
    (0x2000 ≤ n && n ≤ 0x200A) || n == 0x2028 || n == 0x2029 || n == 0x202F ||
    n == 0x205F || n == 0x3000 || n == 0xFEFF

def trimLeft (text : List Char) : List Char :=
  text.dropWhile isBlank

def trimRight (text : List Char) : List Char :=
  (text.reverse.dropWhile isBlank).reverse

def trim (text : List Char) : List Char :=
  trimRight (trimLeft text)

def squeeze : List Char -> List Char
  | [] => []
  | c :: rest =>
      if isBlank c then
        match rest with
        | d :: _ => if isBlank d then squeeze rest else ' ' :: squeeze rest
        | [] => [' ']
      else c :: squeeze rest

/-! ## Case -/

/-- The lower case of a character as far as it is an ASCII letter: the capital
letters and the Kelvin sign have one. -/
def lowerChar (c : Char) : Char :=
  if c.toNat = 0x212A then 'k' else c.toLower

def lower (text : List Char) : List Char :=
  text.map lowerChar

/-! ## Words -/

def isWordChar (c : Char) : Bool :=
  c.isAlphanum || c == '_'

/-- The parts of a text between the places where a character stands; one part if
it stands nowhere. -/
def splitOn (separator : Char) : List Char -> List (List Char)
  | [] => [[]]
  | c :: rest =>
      if c = separator then [] :: splitOn separator rest
      else
        match splitOn separator rest with
        | [] => [[c]]
        | part :: parts => (c :: part) :: parts

def joinWith (separator : List Char) : List (List Char) -> List Char
  | [] => []
  | [part] => part
  | part :: parts => part ++ separator ++ joinWith separator parts

def padRight (target : Nat) (text : List Char) : List Char :=
  text ++ List.replicate (target - width text) ' '

end Text

/-! ## Strings -/

namespace Text

def shownString (s : String) : String :=
  s.map shown

def trimString (s : String) : String :=
  String.ofList (trim s.toList)

def lowerString (s : String) : String :=
  String.ofList (lower s.toList)

def isBlankString (s : String) : Bool :=
  s.toList.all isBlank

def joinStrings (separator : String) (parts : List String) : String :=
  String.ofList (joinWith separator.toList (parts.map String.toList))

end Text

end OperatorConsole
