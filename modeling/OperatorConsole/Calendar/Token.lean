import OperatorConsole.Number.Decimal
import OperatorConsole.Text.Basic

/-!
# Tokens of written times

`tokens` splits the written form of a time into runs of digits, words and marks.  Of a
word the first three letters count, whatever their case; only the names of months may
be longer.

Text in round brackets is one token without a meaning, and a NUL ends the text.
-/

namespace OperatorConsole

namespace Calendar

inductive Token where
  /-- A run of digits: the number that it writes, and how many digits there are. -/
  | number (value length : Nat)
  /-- A colon, hyphen, plus sign, point or closing bracket. -/
  | mark (c : Char)
  | month (number : Nat)
  /-- A half of the day, by the hour with which it starts. -/
  | half (start : Nat)
  /-- The name of a zone, by the hours that its clocks are ahead. -/
  | zone (ahead : Int)
  /-- The letter `Z`, which names the zone whose clocks are not ahead. -/
  | zulu
  /-- The letter `T`, which stands between date and time of day. -/
  | clockMark
  | word
  | blank
  | other
  deriving DecidableEq, Repr

namespace Token

/-! ## Classes of characters -/

def marks : List Char :=
  [':', '-', '+', '.', ')']

/-- Words are made of everything from the letter `A` on that is no space. -/
def isWordChar (c : Char) : Bool :=
  65 ≤ c.toNat && (!Text.isBlank c || c.toNat == 0x2028 || c.toNat == 0x2029)

/-! ## Meanings -/

/-- The number of a run of digits, of which nine count from the first that is not
zero. -/
def ofDigits (digits : List Char) : Token :=
  .number (Decimal.naturalOf ((digits.dropWhile (· == '0')).take 9)) digits.length

def words : List (String × Token) :=
  [("jan", .month 1), ("feb", .month 2), ("mar", .month 3), ("apr", .month 4),
    ("may", .month 5), ("jun", .month 6), ("jul", .month 7), ("aug", .month 8),
    ("sep", .month 9), ("oct", .month 10), ("nov", .month 11), ("dec", .month 12),
    ("am", .half 0), ("pm", .half 12), ("ut", .zone 0), ("utc", .zone 0), ("z", .zulu),
    ("gmt", .zone 0), ("cdt", .zone (-5)), ("cst", .zone (-6)), ("edt", .zone (-4)),
    ("est", .zone (-5)), ("mdt", .zone (-6)), ("mst", .zone (-7)), ("pdt", .zone (-7)),
    ("pst", .zone (-8)), ("t", .clockMark)]

def isMonth : Token -> Bool
  | .month _ => true
  | _ => false

def isNumber : Token -> Bool
  | .number _ _ => true
  | _ => false

def ofWord (letters : List Char) : Token :=
  match words.lookup (String.ofList (Text.lower (letters.take 3))) with
  | some token => if token.isMonth || letters.length ≤ 3 then token else .word
  | none => .word

end Token

/-! ## Splitting -/

/-- How many characters there are up to the bracket that closes so many open ones, or
up to the end. -/
def enclosed : Nat -> List Char -> Nat
  | 0, _ => 0
  | _, [] => 0
  | depth + 1, c :: rest =>
      if c = '(' then enclosed (depth + 2) rest + 1
      else if c = ')' then enclosed depth rest + 1
      else if c = '\x00' then 0
      else enclosed (depth + 1) rest + 1

/-- The tokens of a text behind so many characters that have been dealt with. -/
def tokensFrom : Nat -> List Char -> List Token
  | _, [] => []
  | skip + 1, _ :: rest => tokensFrom skip rest
  | 0, c :: rest =>
      if c = '\x00' then []
      else if c.isDigit then
        let more := rest.takeWhile Char.isDigit
        .ofDigits (c :: more) :: tokensFrom more.length rest
      else if Token.marks.contains c then .mark c :: tokensFrom 0 rest
      else if Token.isWordChar c then
        let more := rest.takeWhile Token.isWordChar
        .ofWord (c :: more) :: tokensFrom more.length rest
      else if Text.isBlank c then .blank :: tokensFrom 0 rest
      else if c = '(' then .other :: tokensFrom (enclosed 1 rest) rest
      else .other :: tokensFrom 0 rest

def tokens (text : List Char) : List Token :=
  tokensFrom 0 text

/-! ## Fractions -/

def fraction (value length : Nat) : Nat :=
  if length ≤ 3 then value * Nat.pow 10 (3 - length) else value / Nat.pow 10 (min length 9 - 3)

end Calendar

end OperatorConsole
