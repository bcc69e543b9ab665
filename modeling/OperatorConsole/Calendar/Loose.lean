import OperatorConsole.Calendar.Standard

/-!
# Times in loose form

People write times in many ways: `Thu, 01 Jan 1970 00:00:00 GMT`, `1/2/2026 9:30 pm`,
`March 7`.  The loose form takes the parts of a time as they come and sorts them out in
the end.

## Parts

Numbers followed by colons belong to the time of day, and so does the number that
completes it.  A sign behind UTC or behind a time of day begins an offset.  All other
numbers belong to the date.  Words that mean nothing are passed over as long as there
has been no number.

## Dates

With the name of a month there remain a day and a year, the day first if it can be one.
Without it the order is month, day and year, or year, month and day if the first number
is no day.  Of years below 100 those below 50 belong to this century and the others to
the last one.  What is left out is 1, and a year that is left out is 2001.
-/

namespace OperatorConsole

namespace Calendar

/-! ## Parts -/

/-- How far the clocks of a zone are off; the minutes may still be to come. -/
structure Zone where
  behind : Bool
  hours : Nat
  minutes : Option Nat
  deriving DecidableEq, Repr

structure Parts where
  /-- The numbers of the date. -/
  numbers : List Int
  month : Option Nat
  /-- Hour, minute, second and millisecond, as far as they are known. -/
  clock : List Nat
  half : Option Nat
  zone : Option Zone
  deriving DecidableEq, Repr

namespace Zone

def ofHours (ahead : Int) : Zone :=
  ⟨ahead < 0, ahead.natAbs, some 0⟩

def isUtc (zone : Zone) : Bool :=
  zone.hours == 0 && zone.minutes == some 0

def expects (zone : Zone) (n : Nat) : Bool :=
  zone.minutes.isNone && n < 60

/-- The zone that a sign and a number of so many digits write; behind one or two digits
the minutes are left out. -/
def ofSigned? (behind : Bool) (n length : Nat) : Option Zone :=
  if length = 1 || length = 2 then some ⟨behind, n, some 0⟩
  else if length = 3 || length = 4 then some ⟨behind, n / 100, some (n % 100)⟩
  else none

/-- The seconds by which the clocks are off, without a sign. They are counted in a word of
32 bits and start again at zero when it is full. -/
def offsetSeconds (zone : Zone) : Nat :=
  (zone.hours * 3600 + zone.minutes.getD 0 * 60) % Nat.pow 2 32

/-- The seconds by which the clocks are ahead. The highest bit of the word is kept for the
sign, so that an offset which sets it is none. -/
def seconds? (zone : Zone) : Option Int :=
  let n := zone.offsetSeconds
  if n < Nat.pow 2 31 then some (if zone.behind then -n else n) else none

end Zone

namespace Parts

def ofNumbers (numbers : List Int) : Parts :=
  ⟨numbers, none, [], none, none⟩

def hasNumber (parts : Parts) : Bool :=
  !parts.numbers.isEmpty || !parts.clock.isEmpty || parts.zone.isSome

/-! ## Reading -/

/-- Whether a number can complete the time of day. -/
def expects (parts : Parts) (n : Nat) : Bool :=
  match parts.clock.length with
  | 1 => n < 60
  | 2 => n < 60
  | 3 => n < 1000
  | _ => false

def completed (clock : List Nat) : List Nat :=
  (clock ++ [0, 0, 0]).take 4

def withClock? (parts : Parts) (n : Nat) : Option Parts :=
  if parts.clock.length < 4 then some { parts with clock := parts.clock ++ [n] } else none

def mayFollowClock : List Token -> Bool
  | [] => true
  | .blank :: _ => true
  | .zulu :: _ => true
  | .mark c :: _ => c == '+' || c == '-'
  | _ => false

def startsWithMark (c : Char) (tokens : List Token) : Bool :=
  tokens.head? == some (.mark c)

/-- Takes a number in that has no mark of a time of day behind it. Beside the parts,
this and what follows tell how many of the next tokens were taken in. -/
def plainNumber? (parts : Parts) (n : Nat) (next : List Token) : Option (Parts × Nat) :=
  match parts.zone with
  | some zone =>
      if zone.expects n then some ({ parts with zone := some { zone with minutes := some n } }, 0)
      else outsideZone
  | none => outsideZone
where
  outsideZone : Option (Parts × Nat) :=
    if parts.expects n then
      if mayFollowClock next then
        some ({ parts with clock := completed (parts.clock ++ [n]) }, 0)
      else none
    else if parts.numbers.length < 3 then
      some ({ parts with numbers := parts.numbers ++ [(n : Int)] },
        if startsWithMark '-' next then 1 else 0)
    else none

def number? (parts : Parts) (n : Nat) (next : List Token) : Option (Parts × Nat) :=
  match next with
  | .mark ':' :: .mark ':' :: _ =>
      if parts.clock.isEmpty then some ({ parts with clock := [n, 0] }, 2) else none
  | .mark ':' :: .mark '.' :: _ => (parts.withClock? n).map fun parts => (parts, 2)
  | .mark ':' :: _ => (parts.withClock? n).map fun parts => (parts, 1)
  | .mark '.' :: after =>
      if parts.expects n then
        match after with
        | .number value length :: _ =>
            let clock := parts.clock ++ [n, fraction value length]
            some ({ parts with clock := completed clock }, 2)
        | _ => none
      else (parts.plainNumber? n after).map fun (parts, taken) => (parts, taken + 1)
  | _ => parts.plainNumber? n next

/-- Passes over a word, unless there has been a number or one follows at once. -/
def word? (parts : Parts) (next : List Token) : Option (Parts × Nat) :=
  if parts.hasNumber || next.head?.any Token.isNumber then none else some (parts, 0)

def zone? (parts : Parts) (ahead : Int) (next : List Token) : Option (Parts × Nat) :=
  if parts.hasNumber then some ({ parts with zone := some (.ofHours ahead) }, 0)
  else parts.word? next

def offset? (parts : Parts) (behind : Bool) (next : List Token) : Option (Parts × Nat) :=
  let (n, length, taken) : Nat × Nat × Nat :=
    match next with
    | .number n length :: _ => (n, length, 1)
    | _ => (0, 0, 0)
  let zone := if startsWithMark ':' (next.drop taken) then some ⟨behind, n, none⟩
    else Zone.ofSigned? behind n length
  zone.map fun zone => ({ parts with zone := some zone }, taken)

def mark? (parts : Parts) (c : Char) (next : List Token) : Option (Parts × Nat) :=
  let isSign := c == '+' || c == '-'
  if isSign && (parts.zone.any Zone.isUtc || !parts.clock.isEmpty) then
    parts.offset? (c == '-') next
  else if (isSign || c == ')') && parts.hasNumber then none
  else some (parts, 0)

/-- Takes in a token, given those that follow it. -/
def step? (parts : Parts) (next : List Token) : Token -> Option (Parts × Nat)
  | .number n _ => parts.number? n next
  | .mark c => parts.mark? c next
  | .month n => some ({ parts with month := some n }, if startsWithMark '-' next then 1 else 0)
  | .half start =>
      if parts.clock.isEmpty then parts.word? next else some ({ parts with half := some start }, 0)
  | .zone ahead => parts.zone? ahead next
  | .zulu => parts.zone? 0 next
  | .clockMark => parts.word? next
  | .word => parts.word? next
  | .blank => some (parts, 0)
  | .other => some (parts, 0)

def readFrom? (parts : Parts) : Nat -> List Token -> Option Parts
  | _, [] => some parts
  | skip + 1, _ :: next => parts.readFrom? skip next
  | 0, token :: next =>
      match parts.step? next token with
      | some (parts, skip) => parts.readFrom? skip next
      | none => none

/-! ## Sorting out -/

def century (n : Int) : Int :=
  if 0 ≤ n && n < 50 then n + 2000 else if 50 ≤ n && n < 100 then n + 1900 else n

/-- Year, month and day, if there is such a month and such a day in any month. -/
def dated? (year month day : Int) : Option Date :=
  if 1 ≤ month && month ≤ 12 && 1 ≤ day && day ≤ 31 then
    some ⟨century year, month.toNat, day.toNat⟩
  else none

def date? (parts : Parts) : Option Date :=
  match parts.numbers with
  | [] => none
  | first :: others =>
      let second := others.getD 0 1
      let third := others.getD 1 1
      let isDay := 1 ≤ first && first ≤ 31
      match parts.month with
      | some month => if isDay then dated? second month first else dated? first month second
      | none => if isDay then dated? third first second else dated? first second third

def hour? (parts : Parts) (n : Nat) : Option Nat :=
  match parts.half with
  | some start => if n ≤ 12 then some (n % 12 + start) else none
  | none => some n

def clock? (parts : Parts) : Option Clock := do
  let hour ← parts.hour? (parts.clock.getD 0 0)
  let clock : Clock :=
    ⟨hour, parts.clock.getD 1 0, parts.clock.getD 2 0, parts.clock.getD 3 0⟩
  if clock.isPlausible then some clock else none

def time? (parts : Parts) : Option Int := do
  let date ← parts.date?
  let clock ← parts.clock?
  let ahead ← match parts.zone with
    | some zone => zone.seconds?
    | none => some 0
  return date.milliseconds + clock.milliseconds - ahead * 1000

end Parts

end Calendar

end OperatorConsole
