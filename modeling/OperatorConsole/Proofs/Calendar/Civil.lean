import Mathlib.Order.Monotone.Basic
import Mathlib.Tactic.IntervalCases
import OperatorConsole.Calendar

/-!
# Days of the calendar

The calendar is given by its first day of 1970 and by the day after each date.  `civilDate` counts
along it in both directions, and later days have later dates.

## Years of an era

A year of an era, its start a first of March, is found by a division that no leap day upsets.  The
quotient never falls from one day to the next, so that it is enough to look at the first and the
last day of each year.
-/

namespace OperatorConsole

namespace Calendar

/-! ## The calendar -/

namespace Date

/-- Whether a date is in the calendar. -/
structure IsValid (date : Date) : Prop where
  month_pos : 1 ≤ date.month
  month_le : date.month ≤ 12
  day_pos : 1 ≤ date.day
  day_le : date.day ≤ daysInMonth date.year date.month

def next (date : Date) : Date :=
  if date.day < daysInMonth date.year date.month then ⟨date.year, date.month, date.day + 1⟩
  else if date.month < 12 then ⟨date.year, date.month + 1, 1⟩
  else ⟨date.year + 1, 1, 1⟩

def IsBefore (date other : Date) : Prop :=
  date.year < other.year ∨ (date.year = other.year ∧
    (date.month < other.month ∨ (date.month = other.month ∧ date.day < other.day)))

end Date

/-- The date of a day, by counting from the first day of 1970 on. -/
inductive IsDay : Int -> Date -> Prop where
  | epoch : IsDay 0 ⟨1970, 1, 1⟩
  | next {days : Int} {date : Date} (hday : IsDay days date) : IsDay (days + 1) date.next
  | previous {days : Int} {date : Date} (hvalid : date.IsValid) (hday : IsDay days date.next) :
      IsDay (days - 1) date

theorem daysInMonth_pos (year : Int) (month : Nat) : 1 ≤ daysInMonth year month := by
  unfold daysInMonth
  split
  · split
    · decide
    · decide
  all_goals decide

namespace Date

theorem IsValid.next {date : Date} (hvalid : date.IsValid) : date.next.IsValid := by
  unfold Date.next
  split
  case isTrue hday => exact ⟨hvalid.month_pos, hvalid.month_le, Nat.succ_pos _, hday⟩
  case isFalse =>
    split
    case isTrue hmonth =>
      exact ⟨Nat.succ_pos _, hmonth, Nat.le_refl 1, daysInMonth_pos _ _⟩
    case isFalse =>
      exact ⟨Nat.le_refl 1, Nat.le_add_left 1 11, Nat.le_refl 1, daysInMonth_pos _ _⟩

theorem isBefore_next (date : Date) : date.IsBefore date.next := by
  unfold Date.next IsBefore
  split
  · exact Or.inr ⟨rfl, Or.inr ⟨rfl, Nat.lt_succ_self _⟩⟩
  · split
    · exact Or.inr ⟨rfl, Or.inl (Nat.lt_succ_self _)⟩
    · exact Or.inl (Int.lt_succ _)

theorem IsValid.exists_previous {date : Date} (hvalid : date.IsValid) :
    exists previous : Date, previous.IsValid ∧ previous.next = date := by
  rcases date with ⟨year, month, day⟩
  rcases hvalid with ⟨hmonth, hmonth', hday, hday'⟩
  dsimp only at hmonth hmonth' hday hday'
  by_cases hfirst : day = 1
  · by_cases hjanuary : month = 1
    · refine ⟨⟨year - 1, 12, 31⟩, ⟨?_, ?_, ?_, ?_⟩, ?_⟩
      · exact Nat.le_add_left 1 11
      · exact Nat.le_refl 12
      · exact Nat.le_add_left 1 30
      · exact Nat.le_refl 31
      · simp [Date.next, daysInMonth, hfirst, hjanuary]
    · have hafter : 1 ≤ month - 1 := by omega
      have hbefore : month - 1 < 12 := by omega
      have hagain : month - 1 + 1 = month := by omega
      refine ⟨⟨year, month - 1, daysInMonth year (month - 1)⟩,
        ⟨hafter, Nat.le_of_lt hbefore, daysInMonth_pos _ _, Nat.le_refl _⟩, ?_⟩
      simp [Date.next, hbefore, hagain, hfirst]
  · have hafter : 1 ≤ day - 1 := by omega
    have hbefore : day - 1 < daysInMonth year month := by omega
    have hagain : day - 1 + 1 = day := by omega
    refine ⟨⟨year, month, day - 1⟩, ⟨hmonth, hmonth', hafter, Nat.le_of_lt hbefore⟩, ?_⟩
    simp [Date.next, hbefore, hagain]

end Date

/-! ## Counting days -/

def yearStart (year : Nat) : Nat :=
  365 * year + year / 4 - year / 100

def yearOf (day : Nat) : Nat :=
  (day - day / 1460 + day / 36524 - day / 146096) / 365

theorem yearOf_step {day : Nat} (hday : day + 1 < 146097) : yearOf day ≤ yearOf (day + 1) := by
  unfold yearOf
  by_cases hlast : day + 1 = 146096
  · -- The leap day of an era is taken back, which keeps it in the year that it ends.
    obtain rfl : day = 146095 := by omega
    decide
  · have hnone : (day + 1) / 146096 = 0 := by omega
    have hnone' : day / 146096 = 0 := by omega
    apply Nat.div_le_div_right
    omega

theorem yearOf_mono {day later : Nat} (hle : day ≤ later) (hlater : later < 146097) :
    yearOf day ≤ yearOf later := by
  induction later, hle using Nat.le_induction with
  | base => exact Nat.le_refl _
  | succ later _ ih => exact (ih (by omega)).trans (yearOf_step hlater)

theorem yearOf_ends : forall year, year < 400 ->
    yearOf (yearStart year) = year ∧ (year < 399 -> yearOf (yearStart (year + 1) - 1) = year) := by
  decide +kernel

theorem yearOf_eq {year day : Nat} (hyear : year < 400) (hday : day < 146097)
    (hstart : yearStart year ≤ day) (hend : year < 399 -> day < yearStart (year + 1)) :
    yearOf day = year := by
  rcases yearOf_ends year hyear with ⟨hfirst, hlast⟩
  have habove : year ≤ yearOf day := hfirst.symm.trans_le (yearOf_mono hstart hday)
  have hbelow : yearOf day ≤ year := by
    by_cases hfinal : year < 399
    · have hnext := hend hfinal
      have hnextYear : yearStart (year + 1) ≤ 146097 := by
        unfold yearStart
        omega
      exact (yearOf_mono (by omega) (by omega)).trans_eq (hlast hfinal)
    · have hwhole : yearOf day ≤ yearOf 146096 := yearOf_mono (by omega) (by decide)
      have hfour : yearOf 146096 = 399 := by decide
      omega
  exact Nat.le_antisymm hbelow habove

def yearLength (year : Int) : Nat :=
  if isLeapYear (year + 1) then 366 else 365

theorem yearLength_cases (year : Int) : yearLength year = 365 ∨ yearLength year = 366 := by
  unfold yearLength
  split
  · exact Or.inr rfl
  · exact Or.inl rfl

theorem yearStart_succ {year : Int} (hyear : year % 400 < 399) :
    yearStart ((year % 400).toNat + 1) = yearStart (year % 400).toNat + yearLength year := by
  unfold yearStart yearLength isLeapYear
  simp only [beq_iff_eq, bne_iff_ne, Bool.and_eq_true, Bool.or_eq_true]
  split
  · omega
  · omega

def daysToYear (year : Int) : Int :=
  year / 400 * 146097 + yearStart (year % 400).toNat

theorem daysToYear_succ (year : Int) :
    daysToYear (year + 1) = daysToYear year + yearLength year := by
  unfold daysToYear
  rcases Int.lt_or_le (year % 400) 399 with hinner | hlast
  · have hera : (year + 1) / 400 = year / 400 := by omega
    have hnext : ((year + 1) % 400).toNat = (year % 400).toNat + 1 := by omega
    rw [hera, hnext, yearStart_succ hinner]
    omega
  · have hera : (year + 1) / 400 = year / 400 + 1 := by omega
    have hnext : (year + 1) % 400 = 0 := by omega
    have hthis : year % 400 = 399 := by omega
    have hleap : isLeapYear (year + 1) = true := by
      have hfour : (year + 1) % 4 = 0 := by omega
      simp [isLeapYear, hfour, hnext]
    have hlength : yearLength year = 366 := if_pos hleap
    have hstart : yearStart 399 = 145731 := by decide
    rw [hera, hnext, hthis, hlength]
    change (year / 400 + 1) * 146097 + (yearStart 0 : Int) =
      year / 400 * 146097 + yearStart 399 + 366
    rw [hstart]
    change (year / 400 + 1) * 146097 + 0 = _
    omega

/-! ## Months from March on -/

namespace Date

/-- The year of a date when years begin with March. -/
def marchYear (date : Date) : Int :=
  if date.month ≤ 2 then date.year - 1 else date.year

def marchDay (date : Date) : Nat :=
  (153 * ((date.month + 9) % 12) + 2) / 5 + date.day - 1

def ofMarch (year : Int) (day : Nat) : Date :=
  let month := (5 * day + 2) / 153
  if month < 10 then ⟨year, month + 3, day - (153 * month + 2) / 5 + 1⟩
  else ⟨year + 1, month - 9, day - (153 * month + 2) / 5 + 1⟩

theorem daysTo_eq (date : Date) :
    daysTo date = daysToYear date.marchYear + date.marchDay - epochDays := by
  have hstart : (yearStart (date.marchYear % 400).toNat : Int) =
      365 * (date.marchYear % 400) + date.marchYear % 400 / 4 - date.marchYear % 400 / 100 := by
    unfold yearStart
    omega
  change date.marchYear / 400 * 146097 + 365 * (date.marchYear % 400) + date.marchYear % 400 / 4 -
    date.marchYear % 400 / 100 + date.marchDay - epochDays = _
  unfold daysToYear
  rw [hstart]
  omega

theorem month_ends (year : Int) {month : Nat} (hpos : 1 ≤ month) (hle : month ≤ 12)
    (hother : month ≠ 2) :
    (153 * ((month + 9) % 12) + 2) / 5 + daysInMonth year month =
      (153 * ((month + 9) % 12 + 1) + 2) / 5 := by
  interval_cases month
  case «2» => exact absurd rfl hother
  all_goals rfl

theorem february_ends (year : Int) : 337 + daysInMonth year 2 = yearLength (year - 1) := by
  unfold yearLength
  rw [Int.sub_add_cancel]
  change 337 + (if isLeapYear year then 29 else 28) = _
  split
  · rfl
  · rfl

theorem IsValid.marchDay_lt {date : Date} (hvalid : date.IsValid) :
    date.marchDay < yearLength date.marchYear := by
  rcases hvalid with ⟨hmonth, hmonth', hday, hday'⟩
  unfold marchDay marchYear
  by_cases hfebruary : date.month = 2
  · rw [hfebruary] at hday' ⊢
    have hends := february_ends date.year
    rw [if_pos (Nat.le_refl 2), ← hends]
    omega
  · have hends := month_ends date.year hmonth hmonth' hfebruary
    have hlength := yearLength_cases (if date.month ≤ 2 then date.year - 1 else date.year)
    omega

theorem index_of_late {month : Nat} (hpos : 1 ≤ month) (hlate : month ≤ 2) :
    (month + 9) % 12 = month + 9 := by
  omega

theorem index_of_early {month : Nat} (hearly : 2 < month) (hle : month ≤ 12) :
    (month + 9) % 12 = month - 3 := by
  omega

theorem IsValid.ofMarch {date : Date} (hvalid : date.IsValid) :
    Date.ofMarch date.marchYear date.marchDay = date := by
  rcases date with ⟨year, month, day⟩
  rcases hvalid with ⟨hmonth, hmonth', hday, hday'⟩
  dsimp only at hmonth hmonth' hday hday'
  have hindex : (5 * marchDay ⟨year, month, day⟩ + 2) / 153 = (month + 9) % 12 := by
    unfold marchDay
    dsimp only
    by_cases hfebruary : month = 2
    · subst hfebruary
      have hends := february_ends year
      have hlength := yearLength_cases (year - 1)
      omega
    · have hends := month_ends year hmonth hmonth' hfebruary
      omega
  unfold Date.ofMarch
  rw [hindex]
  unfold marchDay marchYear
  dsimp only
  by_cases hlate : month ≤ 2
  · have hmonthOf := index_of_late hmonth hlate
    have hlast : ¬ month + 9 < 10 := by omega
    rw [hmonthOf, if_pos hlate, if_neg hlast]
    simp only [Date.mk.injEq]
    omega
  · have hmonthOf := index_of_early (Nat.not_le.mp hlate) hmonth'
    have hfirst : month - 3 < 10 := by omega
    rw [hmonthOf, if_neg hlate, if_pos hfirst]
    simp only [Date.mk.injEq, true_and]
    omega

theorem marchYear_next_month {year : Int} {month : Nat} (day : Nat) (hother : month ≠ 2) :
    marchYear ⟨year, month + 1, 1⟩ = marchYear ⟨year, month, day⟩ := by
  unfold marchYear
  dsimp only
  by_cases hlate : month ≤ 2
  · rw [if_pos hlate, if_pos (by omega)]
  · rw [if_neg hlate, if_neg (by omega)]

theorem marchDay_next_month {year : Int} {month : Nat} (hpos : 1 ≤ month) (hlt : month < 12)
    (hother : month ≠ 2) :
    marchDay ⟨year, month + 1, 1⟩ = marchDay ⟨year, month, daysInMonth year month⟩ + 1 := by
  have hends := month_ends year hpos (Nat.le_of_lt hlt) hother
  have hdays := daysInMonth_pos year month
  have hindex : (month + 1 + 9) % 12 = (month + 9) % 12 + 1 := by omega
  unfold marchDay
  dsimp only
  rw [hindex]
  omega

theorem IsValid.daysTo_next {date : Date} (hvalid : date.IsValid) :
    daysTo date.next = daysTo date + 1 := by
  rcases date with ⟨year, month, day⟩
  rcases hvalid with ⟨hmonth, hmonth', hday, hday'⟩
  dsimp only at hmonth hmonth' hday hday'
  unfold Date.next
  dsimp only
  by_cases hsame : day < daysInMonth year month
  · rw [if_pos hsame, daysTo_eq, daysTo_eq]
    unfold marchYear marchDay
    dsimp only
    omega
  · obtain rfl : day = daysInMonth year month := Nat.le_antisymm hday' (Nat.not_lt.mp hsame)
    rw [if_neg hsame]
    by_cases hdecember : month < 12
    · rw [if_pos hdecember, daysTo_eq, daysTo_eq]
      by_cases hfebruary : month = 2
      · -- March begins the year that follows the one of February.
        subst hfebruary
        have hnext := daysToYear_succ (year - 1)
        have hends := february_ends year
        rw [Int.sub_add_cancel] at hnext
        have hmarch : marchYear ⟨year, 3, 1⟩ = year := by simp [marchYear]
        have hfirst : marchDay ⟨year, 3, 1⟩ = 0 := by simp [marchDay]
        have hlast : marchDay ⟨year, 2, daysInMonth year 2⟩ = 337 + daysInMonth year 2 - 1 := by
          simp [marchDay]
        have hyear : marchYear ⟨year, 2, daysInMonth year 2⟩ = year - 1 := by simp [marchYear]
        rw [hmarch, hfirst, hlast, hyear]
        omega
      · rw [marchYear_next_month (daysInMonth year month) hfebruary,
          marchDay_next_month hmonth hdecember hfebruary]
        omega
    · obtain rfl : month = 12 := Nat.le_antisymm hmonth' (Nat.not_lt.mp hdecember)
      rw [if_neg hdecember, daysTo_eq, daysTo_eq]
      have hfirst : marchDay ⟨year + 1, 1, 1⟩ = marchDay ⟨year, 12, 31⟩ + 1 := by simp [marchDay]
      have hyear : marchYear ⟨year + 1, 1, 1⟩ = marchYear ⟨year, 12, 31⟩ := by simp [marchYear]
      rw [hfirst, hyear]
      change _ = daysToYear (marchYear ⟨year, 12, 31⟩) + marchDay ⟨year, 12, 31⟩ - epochDays + 1
      omega

end Date

/-! ## Dates of days -/

theorem yearStart_add_lt {year : Int} {day : Nat} (hday : day < yearLength year) :
    yearStart (year % 400).toNat + day < 146097 := by
  have hlength := yearLength_cases year
  rcases Int.lt_or_le (year % 400) 399 with hinner | hlast
  · have hbound : yearStart (year % 400).toNat ≤ 145730 := by
      unfold yearStart
      omega
    omega
  · have hthis : (year % 400).toNat = 399 := by omega
    have hstart : yearStart 399 = 145731 := by decide
    rw [hthis, hstart]
    omega

theorem yearOf_start_add {year : Int} {day : Nat} (hday : day < yearLength year) :
    yearOf (yearStart (year % 400).toNat + day) = (year % 400).toNat := by
  apply yearOf_eq (by omega) (yearStart_add_lt hday) (Nat.le_add_right _ _)
  intro hinner
  rw [yearStart_succ (by omega)]
  exact Nat.add_lt_add_left hday _

def dateOf (era : Int) (year day : Nat) : Date :=
  let index := (5 * day + 2) / 153
  let month := if index < 10 then index + 3 else index - 9
  ⟨era * 400 + year + (if month ≤ 2 then 1 else 0), month, day - (153 * index + 2) / 5 + 1⟩

theorem civilDate_eq {days era : Int} {day : Nat} (hera : (days + epochDays) / 146097 = era)
    (hday : ((days + epochDays) % 146097).toNat = day) :
    civilDate days = dateOf era (yearOf day) (day - yearStart (yearOf day)) := by
  subst hera hday
  rfl

theorem dateOf_eq_ofMarch (year : Int) {day : Nat} (hday : day < yearLength year) :
    dateOf (year / 400) (year % 400).toNat day = Date.ofMarch year day := by
  have hlength := yearLength_cases year
  have hyear : year / 400 * 400 + ((year % 400).toNat : Int) = year := by omega
  unfold dateOf Date.ofMarch
  rw [hyear]
  dsimp only
  by_cases hearly : (5 * day + 2) / 153 < 10
  · have hmonth : ¬ (5 * day + 2) / 153 + 3 ≤ 2 := by omega
    rw [if_pos hearly, if_pos hearly, if_neg hmonth, Int.add_zero]
  · have hmonth : (5 * day + 2) / 153 - 9 ≤ 2 := by omega
    rw [if_neg hearly, if_neg hearly, if_pos hmonth]

theorem civilDate_eq_ofMarch (year : Int) {day : Nat} (hday : day < yearLength year) :
    civilDate (daysToYear year + day - epochDays) = Date.ofMarch year day := by
  have hinside := yearStart_add_lt hday
  have hera : (daysToYear year + day - epochDays + epochDays) / 146097 = year / 400 := by
    unfold daysToYear
    omega
  have hdayOfEra : ((daysToYear year + day - epochDays + epochDays) % 146097).toNat =
      yearStart (year % 400).toNat + day := by
    unfold daysToYear
    omega
  rw [civilDate_eq hera hdayOfEra, yearOf_start_add hday, Nat.add_sub_cancel_left]
  exact dateOf_eq_ofMarch year hday

theorem civilDate_daysTo {date : Date} (hvalid : date.IsValid) :
    civilDate (daysTo date) = date := by
  rw [Date.daysTo_eq, civilDate_eq_ofMarch _ hvalid.marchDay_lt, hvalid.ofMarch]

/-! ## Days in a row -/

theorem epoch_isValid : Date.IsValid ⟨1970, 1, 1⟩ := by
  constructor <;> decide

/-- A date that is counted to is in the calendar, and the count of days to it is the same. -/
theorem IsDay.daysTo_eq {days : Int} {date : Date} (hday : IsDay days date) :
    date.IsValid ∧ daysTo date = days := by
  induction hday with
  | epoch => exact ⟨epoch_isValid, by decide⟩
  | next _ ih => exact ⟨ih.1.next, by rw [ih.1.daysTo_next, ih.2]⟩
  | previous hvalid _ ih =>
      have hnext := hvalid.daysTo_next
      exact ⟨hvalid, by omega⟩

theorem exists_isDay (days : Int) : exists date, IsDay days date := by
  induction days using Int.induction_on with
  | zero => exact ⟨_, .epoch⟩
  | succ days ih =>
      rcases ih with ⟨date, hday⟩
      exact ⟨date.next, hday.next⟩
  | pred days ih =>
      rcases ih with ⟨date, hday⟩
      rcases hday.daysTo_eq.1.exists_previous with ⟨previous, hvalid, rfl⟩
      exact ⟨previous, .previous hvalid hday⟩

/-- The date of a day is the one that is counted to. -/
theorem isDay_iff {days : Int} {date : Date} : IsDay days date ↔ civilDate days = date := by
  have hcivil : forall date, IsDay days date -> civilDate days = date := by
    intro date hday
    rcases hday.daysTo_eq with ⟨hvalid, hdays⟩
    rw [← hdays, civilDate_daysTo hvalid]
  constructor
  · exact hcivil date
  · intro hdate
    rcases exists_isDay days with ⟨other, hother⟩
    rw [← hdate, hcivil other hother]
    exact hother

theorem civilDate_succ (days : Int) : civilDate (days + 1) = (civilDate days).next :=
  isDay_iff.mp (isDay_iff.mpr rfl).next

instance : IsTrans Date Date.IsBefore where
  trans := by
    intro date middle later hmiddle hlater
    unfold Date.IsBefore at *
    omega

theorem civilDate_isBefore {days later : Int} (hlt : days < later) :
    (civilDate days).IsBefore (civilDate later) := by
  apply Int.rel_of_forall_rel_succ_of_lt Date.IsBefore _ hlt
  intro n
  rw [civilDate_succ]
  exact Date.isBefore_next _

end Calendar

end OperatorConsole
