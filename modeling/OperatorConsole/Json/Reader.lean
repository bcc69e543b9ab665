import OperatorConsole.Value.Fields

/-!
# Reading JSON documents

`Json.parse?` reads a whole document.  A key that a record writes twice keeps its
first place and its last value.  An escaped 16-bit unit that is half of a pair
without the other half reads as the character of `Text.ofHalf`.
-/

namespace OperatorConsole

namespace Json

def isSpace (c : Char) : Bool :=
  c == ' ' || c == '\n' || c == '\t' || c == '\r'

def skipSpaces (text : List Char) : List Char :=
  text.dropWhile isSpace

/-! ## Strings -/

/-- The 16-bit unit that four hexadecimal digits write. -/
def unit? (a b c d : Char) : Option Nat :=
  Number.readBase? 16 [a, b, c, d]

def unitChar (n : Nat) : Char :=
  if Text.isHalfUnit n then Text.ofHalf n else Char.ofNat n

/-- The character that a pair of 16-bit units encodes. -/
def pairChar (high low : Nat) : Char :=
  Char.ofNat (0x10000 + (high - 0xD800) * 0x400 + (low - 0xDC00))

def shortEscape? : Char -> Option Char
  | '\x22' => some '\x22'
  | '\\' => some '\\'
  | '/' => some '/'
  | 'b' => some '\x08'
  | 'f' => some '\x0c'
  | 'n' => some '\n'
  | 'r' => some '\r'
  | 't' => some '\t'
  | _ => none

def consTo (c : Char) : Option (List Char × List Char) -> Option (List Char × List Char)
  | some (text, rest) => some (c :: text, rest)
  | none => none

/-- Reads string content up to the closing quote, and gives what follows it.  The
number holds the first half of a pair whose second half may come next. -/
def readContent (half : Option Nat) : List Char -> Option (List Char × List Char)
  | '\\' :: 'u' :: a :: b :: c :: d :: rest =>
      match unit? a b c d, half with
      | none, _ => none
      | some n, none =>
          if 0xD800 ≤ n && n < 0xDC00 then readContent (some n) rest
          else consTo (unitChar n) (readContent none rest)
      | some n, some high =>
          if 0xDC00 ≤ n && n < 0xE000 then consTo (pairChar high n) (readContent none rest)
          else if 0xD800 ≤ n && n < 0xDC00 then
            consTo (Text.ofHalf high) (readContent (some n) rest)
          else consTo (Text.ofHalf high) (consTo (unitChar n) (readContent none rest))
  | '\\' :: e :: rest =>
      match shortEscape? e with
      | none => none
      | some c =>
          match half with
          | none => consTo c (readContent none rest)
          | some high => consTo (Text.ofHalf high) (consTo c (readContent none rest))
  | c :: rest =>
      if c = '\x22' then
        match half with
        | none => some ([], rest)
        | some high => some ([Text.ofHalf high], rest)
      else if c = '\\' || c.toNat < 32 then none
      else
        match half with
        | none => consTo c (readContent none rest)
        | some high => consTo (Text.ofHalf high) (consTo c (readContent none rest))
  | [] => none

/-! ## Numbers -/

/-- Reads a number: no leading zeros, and digits on both sides of a point. -/
def readNumber (text : List Char) : Option (Number × List Char) :=
  let (negative, body) : Bool × List Char :=
    match text with
    | '-' :: body => (true, body)
    | body => (false, body)
  match body with
  | '0' :: c :: _ => if c.isDigit then none else finish negative body
  | c :: _ => if c.isDigit then finish negative body else none
  | [] => none
where
  finish (negative : Bool) (body : List Char) : Option (Number × List Char) :=
    match Decimal.scanUnsigned false body with
    | some (d, rest) => some (Decimal.toNumber { d with negative := negative }, rest)
    | none => none

/-! ## Documents -/

def readWord (word : String) (v : Value) (text : List Char) : Option (Value × List Char) :=
  if word.toList.isPrefixOf text then some (v, text.drop word.toList.length) else none

mutual

/-- Reads a value at the head of a text.  The first argument bounds the nesting;
the length of the text is always enough. -/
def readValue : Nat -> List Char -> Option (Value × List Char)
  | 0, _ => none
  | depth + 1, text =>
      match skipSpaces text with
      | [] => none
      | c :: rest =>
          if c = '\x22' then
            match readContent none rest with
            | some (s, rest) => some (.text (String.ofList s), rest)
            | none => none
          else if c = '[' then
            match skipSpaces rest with
            | ']' :: rest => some (.list [], rest)
            | rest =>
                match readItems depth rest with
                | some (items, rest) => some (.list items, rest)
                | none => none
          else if c = '{' then
            match skipSpaces rest with
            | '}' :: rest => some (.ofFields [], rest)
            | rest =>
                match readMembers depth rest with
                | some (members, rest) => some (.ofFields (Fields.ofList members), rest)
                | none => none
          else if c = 't' then readWord "true" (.bool true) (c :: rest)
          else if c = 'f' then readWord "false" (.bool false) (c :: rest)
          else if c = 'n' then readWord "null" .null (c :: rest)
          else
            match readNumber (c :: rest) with
            | some (x, rest) => some (.number x, rest)
            | none => none

def readItems : Nat -> List Char -> Option (List Value × List Char)
  | 0, _ => none
  | depth + 1, text =>
      match readValue depth text with
      | none => none
      | some (v, rest) =>
          match skipSpaces rest with
          | ',' :: rest =>
              match readItems depth rest with
              | some (items, rest) => some (v :: items, rest)
              | none => none
          | ']' :: rest => some ([v], rest)
          | _ => none

def readMembers : Nat -> List Char -> Option (List (String × Value) × List Char)
  | 0, _ => none
  | depth + 1, text =>
      match skipSpaces text with
      | '\x22' :: rest =>
          match readContent none rest with
          | none => none
          | some (key, rest) =>
              match skipSpaces rest with
              | ':' :: rest =>
                  match readValue depth rest with
                  | none => none
                  | some (v, rest) =>
                      match skipSpaces rest with
                      | ',' :: rest =>
                          match readMembers depth rest with
                          | some (members, rest) => some ((String.ofList key, v) :: members, rest)
                          | none => none
                      | '}' :: rest => some ([(String.ofList key, v)], rest)
                      | _ => none
              | _ => none
      | _ => none

end

def parse? (document : String) : Option Value :=
  let text := document.toList
  match readValue (text.length + 1) text with
  | some (v, rest) => if (skipSpaces rest).isEmpty then some v else none
  | none => none

end Json

end OperatorConsole
