import OperatorConsole.Proofs.Calendar.Civil
import OperatorConsole.Proofs.Number.Truncation
import OperatorConsole.Proofs.Text.Digits

/-!
# Moments

A moment is a day of the calendar and a time of that day.  Its stamp names both to the second, in
columns of digits from the year to the second, so that stamps are in the order of their moments
and two moments have one stamp if they are in the same second.
-/

namespace OperatorConsole

namespace Calendar

/-- Whether there is such a time of day. -/
structure Clock.IsValid (clock : Clock) : Prop where
  hour : clock.hour < 24
  minute : clock.minute < 60
  second : clock.second < 60
  millisecond : clock.millisecond < 1000

/-- The date and the time of day so many milliseconds from the start of 1970. -/
structure IsMoment (ms : Int) (date : Date) (clock : Clock) : Prop where
  valid : clock.IsValid
  day : exists days, IsDay days date ∧ ms = days * dayMs + clock.milliseconds

theorem milliseconds_lt {clock : Clock} (hclock : clock.IsValid) :
    clock.milliseconds < 86400000 := by
  rcases hclock with ⟨hhour, hminute, hsecond, hmillisecond⟩
  unfold Clock.milliseconds
  omega

theorem clockOf_milliseconds {clock : Clock} (hclock : clock.IsValid) :
    clockOf clock.milliseconds = clock := by
  rcases clock with ⟨hour, minute, second, millisecond⟩
  rcases hclock with ⟨hhour, hminute, hsecond, hmillisecond⟩
  dsimp only at hhour hminute hsecond hmillisecond
  unfold clockOf Clock.milliseconds
  simp only [Clock.mk.injEq]
  omega

/-- The program finds the date and the time of day of every moment. -/
theorem IsMoment.eq {ms : Int} {date : Date} {clock : Clock} (hmoment : IsMoment ms date clock) :
    civilDate (ms / dayMs) = date ∧ clockOf (ms % dayMs).toNat = clock := by
  rcases hmoment with ⟨hclock, days, hday, hms⟩
  have hbound := milliseconds_lt hclock
  have hdays : ms / dayMs = days := by
    unfold dayMs at *
    omega
  have htime : (ms % dayMs).toNat = clock.milliseconds := by
    unfold dayMs at *
    omega
  rw [hdays, htime]
  exact ⟨isDay_iff.mp hday, clockOf_milliseconds hclock⟩

theorem clockOf_isValid {ms : Nat} (hms : ms < 86400000) : (clockOf ms).IsValid := by
  constructor
  case hour => exact Nat.div_lt_of_lt_mul hms
  case minute => exact Nat.mod_lt _ (Nat.succ_pos _)
  case second => exact Nat.mod_lt _ (Nat.succ_pos _)
  case millisecond => exact Nat.mod_lt _ (Nat.succ_pos _)

theorem milliseconds_clockOf (ms : Nat) : (clockOf ms).milliseconds = ms := by
  unfold clockOf Clock.milliseconds
  dsimp only
  omega

theorem exists_isMoment (ms : Int) : exists date clock, IsMoment ms date clock := by
  have hbelow : (ms % dayMs).toNat < 86400000 := by
    unfold dayMs
    omega
  have hsplit : ms = ms / dayMs * dayMs + ((ms % dayMs).toNat : Int) := by
    unfold dayMs
    omega
  rcases exists_isDay (ms / dayMs) with ⟨date, hday⟩
  refine ⟨date, clockOf (ms % dayMs).toNat, clockOf_isValid hbelow, ms / dayMs, hday, ?_⟩
  rw [milliseconds_clockOf]
  exact hsplit

/-! ## Stamps -/

/-- The columns of a stamp: a date, a blank and a time of day. -/
def layout : List Text.Column :=
  [(4, ['-']), (2, ['-']), (2, [' ']), (2, [':']), (2, [':']), (2, [])]

def entries (date : Date) (clock : Clock) : List Nat :=
  [date.year.toNat, date.month, date.day, clock.hour, clock.minute, clock.second]

def stamp (date : Date) (clock : Clock) : List Char :=
  Text.columns layout (entries date clock)

/-- Years that are written with four digits and no sign. -/
def Date.IsPlain (date : Date) : Prop :=
  0 ≤ date.year ∧ date.year ≤ 9999

instance (date : Date) : Decidable date.IsPlain :=
  inferInstanceAs (Decidable (0 ≤ date.year ∧ date.year ≤ 9999))

theorem daysInMonth_le (year : Int) (month : Nat) : daysInMonth year month ≤ 31 := by
  unfold daysInMonth
  split
  · split
    · decide
    · decide
  all_goals decide

section Stamps

variable {ms : Int} {date : Date} {clock : Clock}

theorem IsMoment.isValid (hmoment : IsMoment ms date clock) : date.IsValid := by
  rcases hmoment.day with ⟨days, hday, _⟩
  exact hday.daysTo_eq.1

theorem IsMoment.bounds (hmoment : IsMoment ms date clock) (hplain : date.IsPlain) :
    date.year.toNat < 10 ^ 4 ∧ date.month < 10 ^ 2 ∧ date.day < 10 ^ 2 ∧ clock.hour < 10 ^ 2 ∧
      clock.minute < 10 ^ 2 ∧ clock.second < 10 ^ 2 := by
  have hdays := daysInMonth_le date.year date.month
  rcases hmoment.isValid with ⟨_, hmonth, _, hday⟩
  rcases hmoment.valid with ⟨hhour, hminute, hsecond, _⟩
  rcases hplain with ⟨hyear, hyear'⟩
  omega

theorem IsMoment.fits (hmoment : IsMoment ms date clock) (hplain : date.IsPlain) :
    List.Forall₂ Text.Column.Fits layout (entries date clock) := by
  rcases hmoment.bounds hplain with ⟨hyear, hmonth, hday, hhour, hminute, hsecond⟩
  exact .cons hyear (.cons hmonth (.cons hday (.cons hhour (.cons hminute (.cons hsecond .nil)))))

def secondsText (clock : Clock) : List Char :=
  padded 2 clock.hour ++ ':' :: padded 2 clock.minute ++ ':' :: padded 2 clock.second

theorem IsMoment.stamp_eq (hmoment : IsMoment ms date clock) (hplain : date.IsPlain) :
    stamp date clock = dateText date ++ ' ' :: secondsText clock := by
  rcases hmoment.bounds hplain with ⟨hyear, hmonth, hday, hhour, hminute, hsecond⟩
  have hsign : (decide (0 ≤ date.year) && decide (date.year ≤ 9999)) = true := by
    rw [decide_eq_true hplain.1, decide_eq_true hplain.2, Bool.and_self]
  unfold stamp dateText secondsText yearText
  rw [if_pos hsign, Text.padded_eq hyear, Text.padded_eq hmonth, Text.padded_eq hday,
    Text.padded_eq hhour, Text.padded_eq hminute, Text.padded_eq hsecond]
  simp only [layout, entries, Text.columns, List.append_assoc, List.cons_append, List.nil_append,
    List.append_nil]

theorem length_stamp (date : Date) (clock : Clock) : (stamp date clock).length = 19 := by
  simp only [stamp, layout, entries, Text.columns, List.length_append, Text.length_lastDigits,
    List.length_cons, List.length_nil]

/-- The text of a moment has its stamp in front, whatever separates date and time of day. -/
theorem IsMoment.isoChars_eq (hmoment : IsMoment ms date clock) (separator : Char) :
    isoChars separator ms = dateText date ++ separator :: (secondsText clock ++
      '.' :: (padded 3 clock.millisecond ++ ['Z'])) := by
  rcases hmoment.eq with ⟨hdate, hclock⟩
  unfold isoChars clockText secondsText
  rw [hdate, hclock]
  simp only [List.append_assoc, List.cons_append]

theorem IsMoment.length_dateText (hmoment : IsMoment ms date clock) (hplain : date.IsPlain) :
    (dateText date).length = 10 := by
  have hlength := length_stamp date clock
  rcases hmoment.bounds hplain with ⟨_, _, _, hhour, hminute, hsecond⟩
  rw [hmoment.stamp_eq hplain, List.length_append, List.length_cons] at hlength
  unfold secondsText at hlength
  rw [Text.padded_eq hhour, Text.padded_eq hminute, Text.padded_eq hsecond] at hlength
  simp only [List.length_append, List.length_cons, Text.length_lastDigits] at hlength
  omega

theorem IsMoment.take_stamp (hmoment : IsMoment ms date clock) (hplain : date.IsPlain) :
    (isoChars ' ' ms).take 19 = stamp date clock := by
  have hfront : isoChars ' ' ms =
      stamp date clock ++ '.' :: (padded 3 clock.millisecond ++ ['Z']) := by
    rw [hmoment.isoChars_eq, hmoment.stamp_eq hplain, List.append_assoc, List.cons_append]
  rw [hfront]
  exact List.take_left' (length_stamp date clock)

example : (isoChars ' ' 1772373909000).take 19 = "2026-03-01 14:05:09".toList := by decide +kernel

theorem IsMoment.take_date (hmoment : IsMoment ms date clock) (hplain : date.IsPlain)
    (separator : Char) : (isoChars separator ms).take 10 = dateText date := by
  rw [hmoment.isoChars_eq]
  exact List.take_left' (hmoment.length_dateText hplain)

end Stamps

/-! ## Order -/

section Order

variable {ms later : Int} {date laterDate : Date} {clock laterClock : Clock}

theorem entries_lt (hmoment : IsMoment ms date clock) (hplain : date.IsPlain)
    (hlater : IsMoment later laterDate laterClock) (hlt : ms / 1000 < later / 1000) :
    entries date clock < entries laterDate laterClock := by
  rcases hmoment.eq with ⟨hdate, hclock⟩
  rcases hlater.eq with ⟨hdate', hclock'⟩
  unfold entries
  simp only [List.cons_lt_cons_iff]
  rcases Int.lt_or_le (ms / dayMs) (later / dayMs) with hday | hday
  · have hbefore := civilDate_isBefore hday
    rw [hdate, hdate'] at hbefore
    unfold Date.IsBefore at hbefore
    rcases hplain with ⟨hyear, _⟩
    omega
  · have hsame : ms / dayMs = later / dayMs := by
      unfold dayMs at *
      omega
    have hseconds : (ms % dayMs).toNat / 1000 < (later % dayMs).toNat / 1000 := by
      unfold dayMs at *
      omega
    rw [← hdate, ← hdate', ← hclock, ← hclock', hsame]
    unfold clockOf
    dsimp only
    generalize (ms % dayMs).toNat = time at hseconds ⊢
    generalize (later % dayMs).toNat = laterTime at hseconds ⊢
    omega

theorem stamp_lt (hmoment : IsMoment ms date clock) (hplain : date.IsPlain)
    (hlater : IsMoment later laterDate laterClock) (hplain' : laterDate.IsPlain)
    (hlt : ms / 1000 < later / 1000) : stamp date clock < stamp laterDate laterClock :=
  Text.columns_lt (hmoment.fits hplain) (hlater.fits hplain')
    (entries_lt hmoment hplain hlater hlt)

/-- In one second there is one stamp. -/
theorem stamp_eq_of_second (hmoment : IsMoment ms date clock)
    (hlater : IsMoment later laterDate laterClock) (hsame : ms / 1000 = later / 1000) :
    stamp date clock = stamp laterDate laterClock := by
  rcases hmoment.eq with ⟨hdate, hclock⟩
  rcases hlater.eq with ⟨hdate', hclock'⟩
  have hday : ms / dayMs = later / dayMs := by
    unfold dayMs
    omega
  have hseconds : (ms % dayMs).toNat / 1000 = (later % dayMs).toNat / 1000 := by
    unfold dayMs
    omega
  have hhour : clock.hour = laterClock.hour := by
    rw [← hclock, ← hclock']
    change (ms % dayMs).toNat / 3600000 = (later % dayMs).toNat / 3600000
    omega
  have hminute : clock.minute = laterClock.minute := by
    rw [← hclock, ← hclock']
    change (ms % dayMs).toNat / 60000 % 60 = (later % dayMs).toNat / 60000 % 60
    omega
  have hsecond : clock.second = laterClock.second := by
    rw [← hclock, ← hclock']
    exact congrArg (fun n => n % 60) hseconds
  unfold stamp entries
  rw [← hdate, ← hdate', hday, hhour, hminute, hsecond]

end Order

/-! ## Times -/

theorem milliseconds?_eq_some {time : Number} {ms : Int} (hms : milliseconds? time = some ms) :
    time.truncate.toInt? = some ms ∧ ms.natAbs ≤ 8640000000000000 := by
  unfold milliseconds? at hms
  cases hwhole : time.truncate.toInt? with
  | none =>
      rw [hwhole] at hms
      cases hms
  | some whole =>
      rw [hwhole] at hms
      dsimp only at hms
      split at hms
      · rename_i hbound
        cases hms
        exact ⟨rfl, hbound⟩
      · cases hms

theorem milliseconds?_mono {time later : Number} (hle : time.le later = true) {ms ms' : Int}
    (hms : milliseconds? time = some ms) (hms' : milliseconds? later = some ms') : ms ≤ ms' := by
  rcases milliseconds?_eq_some hms with ⟨hwhole, hbound⟩
  rcases milliseconds?_eq_some hms' with ⟨hwhole', hbound'⟩
  rcases Number.toInt?_truncate hwhole (by omega) with ⟨u, hunits, hu⟩
  rcases Number.toInt?_truncate hwhole' (by omega) with ⟨u', hunits', hu'⟩
  have hone : (0 : Int) < Number.one := Int.natCast_pos.mpr Number.one_pos
  rw [← hu, ← hu']
  exact Int.tdiv_le_tdiv hone (Number.units_le hunits hunits' hle)

end Calendar

end OperatorConsole
