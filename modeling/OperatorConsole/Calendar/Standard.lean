import OperatorConsole.Calendar
import OperatorConsole.Calendar.Token

/-!
# Times in standard form

The standard form is a date, `2026-03-01`, a time of day behind a `T`, and a zone: `Z` or
the hours and minutes by which its clocks are ahead.

A date may end with its month or its year, and a time of day with its minutes.  What is
left out is the first of its kind, and without a zone the time is in UTC.

## Heads

A text that begins like a date in standard form may still turn out to be in another
form.  `DateHead` keeps the numbers that were read up to there and what follows them.
-/

namespace OperatorConsole

namespace Calendar

/-! ## Dates -/

structure DateHead where
  numbers : List Int
  /-- Whether the standard form has been kept so far. -/
  kept : Bool
  rest : List Token

namespace DateHead

/-- A year of four digits, or of six behind a sign; the year zero has no minus. -/
def ofYear : List Token -> DateHead
  | .number n 4 :: rest => ⟨[(n : Int)], true, rest⟩
  | .mark '+' :: .number n 6 :: rest => ⟨[(n : Int)], true, rest⟩
  | .mark '-' :: .number n 6 :: rest =>
      if n = 0 then ⟨[], false, .mark '-' :: rest⟩ else ⟨[-(n : Int)], true, rest⟩
  | tokens => ⟨[], false, tokens⟩

def withPart (limit : Nat) (head : DateHead) : DateHead :=
  match head.kept, head.rest with
  | true, .mark '-' :: .number n 2 :: rest =>
      if 1 ≤ n && n ≤ limit then ⟨head.numbers ++ [(n : Int)], true, rest⟩
      else ⟨head.numbers, false, .number n 2 :: rest⟩
  | true, .mark '-' :: rest => ⟨head.numbers, false, rest⟩
  | _, _ => head

def ofTokens (tokens : List Token) : DateHead :=
  ((ofYear tokens).withPart 12).withPart 31

def date (head : DateHead) : Date :=
  ⟨head.numbers.getD 0 1, (head.numbers.getD 1 1).toNat, (head.numbers.getD 2 1).toNat⟩

end DateHead

/-! ## Times of day -/

/-- Whether there is such a time of day; a day also ends with its hour 24. -/
def Clock.isPlausible (clock : Clock) : Bool :=
  (clock.hour < 24 && clock.minute < 60 && clock.second < 60 && clock.millisecond < 1000) ||
    clock == ⟨24, 0, 0, 0⟩

/-- Seconds and their fraction behind a colon, and what follows them. Nothing but zeros
may stand there in the last hour. -/
def seconds? (hour : Nat) : List Token -> Option (Nat × Nat × List Token)
  | .mark ':' :: .number second 2 :: .mark '.' :: .number value length :: rest =>
      if hour = 24 && value != 0 then none else some (second, fraction value length, rest)
  | .mark ':' :: .number _ 2 :: .mark '.' :: _ => none
  | .mark ':' :: .number second 2 :: rest => some (second, 0, rest)
  | .mark ':' :: _ => none
  | rest => some (0, 0, rest)

def clock? : List Token -> Option (Clock × List Token)
  | .number hour 2 :: .mark ':' :: .number minute 2 :: rest =>
      match seconds? hour rest with
      | some (second, millisecond, rest) =>
          let clock := ⟨hour, minute, second, millisecond⟩
          if clock.isPlausible then some (clock, rest) else none
      | none => none
  | _ => none

/-! ## Zones -/

def offset? (sign : Char) (hours minutes : Nat) : Option Int :=
  if hours < 24 && minutes < 60 then
    if sign = '+' then some (hours * 60 + minutes)
    else if sign = '-' then some (-(hours * 60 + minutes))
    else none
  else none

def zone? : List Token -> Option Int
  | [] => some 0
  | [.zulu] => some 0
  | [.mark sign, .number n 4] => offset? sign (n / 100) (n % 100)
  | [.mark sign, .number hours 2, .mark ':', .number minutes 2] => offset? sign hours minutes
  | _ => none

/-! ## Times -/

def Date.milliseconds (date : Date) : Int :=
  daysTo date * dayMs

def timeOfDay? (tokens : List Token) : Option Int := do
  let (clock, rest) ← clock? tokens
  let zone ← zone? rest
  return clock.milliseconds - zone * 60000

end Calendar

end OperatorConsole
