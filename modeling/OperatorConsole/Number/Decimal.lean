import OperatorConsole.Number.Basic
import OperatorConsole.Text.Basic

/-!
# Decimal text of numbers

`Number.toText` writes the fewest significant digits that read back, the ones
nearest to the number where several do, positionally while the exponent lies
between -6 and 20 and with an exponent mark outside.

## Reading

`Decimal.toNumber` is the number nearest to a decimal.  `Decimal.scanUnsigned`
recognises decimal notation at the head of a text and `Number.ofText?` reads a
whole text, binary, octal and hexadecimal notation and `Infinity` included.
-/

namespace OperatorConsole

/-- The value `digits * 10 ^ exponent`, with a sign. -/
structure Decimal where
  negative : Bool
  digits : Nat
  exponent : Int
  deriving DecidableEq, Repr

namespace Decimal

/-- How many decimal digits a natural has. -/
def width (n : Nat) : Nat :=
  (Nat.toDigits 10 n).length

/-- The number nearest to a decimal. Exponents that leave the range of numbers on
either side are settled before any power is taken. -/
def toNumber (d : Decimal) : Number :=
  let scale := d.exponent + width d.digits
  if d.digits = 0 then .zero d.negative
  else if scale < -400 then .zero d.negative
  else if 400 < scale then .infinity d.negative
  else
    .round d.negative (d.digits * Number.one * Nat.pow 10 d.exponent.toNat)
      (Nat.pow 10 (-d.exponent).toNat)

/-! ## Recognising decimal notation -/

def digitValue (c : Char) : Nat :=
  c.toNat - 48

def naturalOf (digits : List Char) : Nat :=
  digits.foldl (fun n c => 10 * n + digitValue c) 0

def scanDigits (text : List Char) : List Char × List Char :=
  (text.takeWhile Char.isDigit, text.dropWhile Char.isDigit)

def scanSign : List Char -> Bool × List Char
  | '-' :: rest => (true, rest)
  | '+' :: rest => (false, rest)
  | text => (false, text)

def signed (negative : Bool) (n : Nat) : Int :=
  if negative then -(n : Int) else n

/-- The exponent part at the head of a text; `0` and nothing consumed where there is none. -/
def scanExponent : List Char -> Int × List Char
  | [] => (0, [])
  | mark :: rest =>
      let sign := scanSign rest
      let digits := scanDigits sign.2
      if (mark = 'e' || mark = 'E') && !digits.1.isEmpty then
        (signed sign.1 (naturalOf digits.1), digits.2)
      else (0, mark :: rest)

/-- The fraction at the head of a text: a point and digits.  A point with no digit
after it is consumed only if `bareDot` says so. -/
def scanFraction (bareDot : Bool) : List Char -> List Char × List Char
  | [] => ([], [])
  | c :: rest =>
      let digits := scanDigits rest
      if c = '.' && (bareDot || !digits.1.isEmpty) then digits else ([], c :: rest)

/-- Unsigned decimal notation at the head of a text: digits with an optional
fraction, or a fraction alone, then an optional exponent.  A point with no digit
after it belongs to the notation only if digits stand before it and `bareDot` says
so. -/
def scanUnsigned (bareDot : Bool) (text : List Char) : Option (Decimal × List Char) :=
  let whole := scanDigits text
  let fraction := scanFraction (bareDot && !whole.1.isEmpty) whole.2
  if whole.1.isEmpty && fraction.1.isEmpty then none
  else
    let exponent := scanExponent fraction.2
    some ({ negative := false
            digits := naturalOf (whole.1 ++ fraction.1)
            exponent := exponent.1 - fraction.1.length }, exponent.2)

/-- A whole text in decimal notation, with an optional sign. -/
def ofText? (text : List Char) : Option Decimal :=
  let sign := scanSign text
  match scanUnsigned true sign.2 with
  | some (d, []) => some { d with negative := sign.1 }
  | _ => none

/-! ### Nothing is read twice -/

theorem scanDigits_append (text : List Char) :
    (scanDigits text).1 ++ (scanDigits text).2 = text :=
  List.takeWhile_append_dropWhile

theorem length_scanDigits (text : List Char) :
    (scanDigits text).1.length + (scanDigits text).2.length = text.length := by
  rw [← List.length_append, scanDigits_append]

theorem length_scanSign_le (text : List Char) :
    (scanSign text).2.length ≤ text.length := by
  unfold scanSign
  split <;> simp

theorem length_scanExponent_le (text : List Char) :
    (scanExponent text).2.length ≤ text.length := by
  cases text with
  | nil => simp [scanExponent]
  | cons mark rest =>
      have hsign := length_scanSign_le rest
      have hdigits := length_scanDigits (scanSign rest).2
      simp only [scanExponent]
      split
      · simp only [List.length_cons]
        omega
      · exact Nat.le_refl _

theorem length_scanFraction (bareDot : Bool) (text : List Char) :
    (scanFraction bareDot text).1.length + (scanFraction bareDot text).2.length ≤ text.length := by
  cases text with
  | nil => simp [scanFraction]
  | cons c rest =>
      have hdigits := length_scanDigits rest
      simp only [scanFraction]
      split
      · simp only [List.length_cons]
        omega
      · simp

theorem length_scanUnsigned_lt {bareDot : Bool} {text rest : List Char} {d : Decimal}
    (h : scanUnsigned bareDot text = some (d, rest)) : rest.length < text.length := by
  simp only [scanUnsigned] at h
  split at h
  · simp at h
  · rename_i hsome
    simp only [Option.some.injEq, Prod.mk.injEq] at h
    have hwhole := length_scanDigits text
    have hfraction := length_scanFraction (bareDot && !(scanDigits text).1.isEmpty)
      (scanDigits text).2
    have hexponent := length_scanExponent_le
      (scanFraction (bareDot && !(scanDigits text).1.isEmpty) (scanDigits text).2).2
    rw [h.2] at hexponent
    have hpos : 0 < (scanDigits text).1.length +
        (scanFraction (bareDot && !(scanDigits text).1.isEmpty) (scanDigits text).2).1.length := by
      simp only [Bool.and_eq_true, List.isEmpty_iff, not_and] at hsome
      by_cases hw : (scanDigits text).1 = []
      · have := List.length_pos_iff.mpr (hsome hw)
        omega
      · have := List.length_pos_iff.mpr hw
        omega
    omega

end Decimal

namespace Number

/-! ## Shortest digits -/

/-- The decimal exponent of a positive quotient of naturals: the `e` with
`10 ^ e ≤ n / d < 10 ^ (e + 1)`, for quotients of at least `10 ^ (-400)`. -/
def decimalExponent (numerator denominator : Nat) : Int :=
  (Decimal.width (numerator * Nat.pow 10 400 / denominator) : Int) - 401

/-- The `count` leading digits of a magnitude, cut and not rounded, with their exponent. -/
def leading (units : Nat) (count : Nat) : Decimal :=
  let e := decimalExponent units one - (count : Int) + 1
  { negative := false
    digits := units * Nat.pow 10 (-e).toNat / (one * Nat.pow 10 e.toNat)
    exponent := e }

/-- The distance of a decimal from a magnitude, scaled by a factor that depends
only on the magnitude and the exponent. -/
def gap (units : Nat) (d : Decimal) : Nat :=
  ((d.digits * one * Nat.pow 10 d.exponent.toNat : Nat) -
    (units * Nat.pow 10 (-d.exponent).toNat : Nat) : Int).natAbs

/-- Which of two neighbours to take, given whether each reads back: the nearer one of two
that do and the even one of two equally near. -/
def nearer? (units : Nat) (low high : Decimal) : Bool -> Bool -> Option Decimal
  | false, false => none
  | true, false => some low
  | false, true => some high
  | true, true =>
      if gap units low < gap units high then some low
      else if gap units high < gap units low then some high
      else if low.digits % 2 = 0 then some low else some high

def readsBack (rank : Nat) (d : Decimal) : Bool :=
  d.toNumber == ofRank false rank

/-- The decimal with so many digits that reads back as the magnitude of the given
rank and lies nearest to it, if there is one.  Only the two neighbours on that
grid can be it. -/
def withDigits? (rank : Nat) (count : Nat) : Option Decimal :=
  let low := leading (unitsOf rank) count
  let high := { low with digits := low.digits + 1 }
  nearer? (unitsOf rank) low high (readsBack rank low) (readsBack rank high)

def exactDecimal (rank : Nat) : Decimal :=
  { negative := false, digits := unitsOf rank * Nat.pow 5 1074, exponent := -1074 }

/-- The shortest decimal that reads back as a positive magnitude, nearest to it
among those. -/
def shortest (rank : Nat) : Decimal :=
  ((List.range' 1 17).findSome? (withDigits? rank)).getD (exactDecimal rank)

/-! ## Layout -/

def stripZeros (digits : List Char) : List Char :=
  (digits.reverse.dropWhile (· == '0')).reverse

/-- Writes digits whose point stands `point` places after the first one's left edge. -/
def layout (digits : List Char) (point : Int) : List Char :=
  let count : Int := digits.length
  if count ≤ point && point ≤ 21 then
    digits ++ List.replicate (point - count).toNat '0'
  else if 0 < point && point ≤ 21 then
    digits.take point.toNat ++ '.' :: digits.drop point.toNat
  else if -6 < point && point ≤ 0 then
    '0' :: '.' :: (List.replicate (-point).toNat '0' ++ digits)
  else
    let exponent := point - 1
    let mark := 'e' :: (if exponent < 0 then '-' else '+') :: Nat.toDigits 10 exponent.natAbs
    match digits with
    | [] => mark
    | [d] => d :: mark
    | d :: rest => d :: '.' :: (rest ++ mark)

def magnitudeText (rank : Nat) : List Char :=
  let d := shortest rank
  let digits := Nat.toDigits 10 d.digits
  layout (stripZeros digits) (d.exponent + digits.length)

/-- The text of a number. Zero has no sign. -/
def toChars : Number -> List Char
  | .nan => "NaN".toList
  | .infinity true => "-Infinity".toList
  | .infinity false => "Infinity".toList
  | .finite negative rank =>
      if rank.val = 0 then ['0']
      else if negative then '-' :: magnitudeText rank
      else magnitudeText rank

def toText (x : Number) : String :=
  String.ofList x.toChars

instance : ToString Number where
  toString := toText

/-! ## Reading a whole text -/

def hexValue? (c : Char) : Option Nat :=
  if c.isDigit then some (c.toNat - 48)
  else if 'a' ≤ c && c ≤ 'f' then some (c.toNat - 87)
  else if 'A' ≤ c && c ≤ 'F' then some (c.toNat - 55)
  else none

def readBase? (base : Nat) (digits : List Char) : Option Nat :=
  if digits.isEmpty then none
  else
    digits.foldlM (fun n c =>
      match hexValue? c with
      | some v => if v < base then some (base * n + v) else none
      | none => none) 0

/-- The number that a text without surrounding blanks writes; the empty text writes zero. -/
def readChars (text : List Char) : Number :=
  match text with
  | [] => 0
  | '0' :: 'x' :: digits => ofBase 16 digits
  | '0' :: 'X' :: digits => ofBase 16 digits
  | '0' :: 'o' :: digits => ofBase 8 digits
  | '0' :: 'O' :: digits => ofBase 8 digits
  | '0' :: 'b' :: digits => ofBase 2 digits
  | '0' :: 'B' :: digits => ofBase 2 digits
  | _ =>
      if text = "Infinity".toList || text = "+Infinity".toList then .infinity false
      else if text = "-Infinity".toList then .infinity true
      else
        match Decimal.ofText? text with
        | some d => d.toNumber
        | none => .nan
where
  ofBase (base : Nat) (digits : List Char) : Number :=
    match readBase? base digits with
    | some n => ofNat n
    | none => .nan

def ofText (s : String) : Number :=
  readChars (Text.trim s.toList)

/-! ## Numeric text -/

/-- Whether a text, surrounding blanks aside, writes a finite number in decimal
notation. -/
def isNumericText (s : String) : Bool :=
  match Decimal.ofText? (Text.trim s.toList) with
  | some d => d.toNumber.isFinite
  | none => false

end Number

end OperatorConsole
