import OperatorConsole.Proofs.Action.Running
import OperatorConsole.Proofs.Calendar.Moment
import OperatorConsole.Query.Evaluation.Operand

/-!
# Times in queries

In a query, `now()` and `today()` stand for text.  That text can be compared as text: it names the
moment of the clock from the year to the second, so that an earlier clock gives text that does not
come later, and one text stands for one second.
-/

namespace OperatorConsole

namespace Query

open OperatorConsole.Action Calendar

structure ReadsMoment (clock : Action σ Number) (s t : Session σ) (time : Number) (ms : Int)
    (date : Date) (timeOfDay : Clock) : Prop where
  read : clock s = (.ok time, t)
  milliseconds : milliseconds? time = some ms
  moment : IsMoment ms date timeOfDay
  plain : date.IsPlain

structure Tells (clock : Action σ Number) (s t : Session σ) (date : Date) (timeOfDay : Clock)
    (text : String) : Prop where
  now : Argument.resolve clock (.helper .now) s = (.ok (.scalar (.text text)), t)
  stamped : text.toList = stamp date timeOfDay
  today : exists day rest,
    Argument.resolve clock (.helper .today) s = (.ok (.scalar (.text day)), t) ∧
      day.toList = dateText date ∧ text = day ++ rest

section Telling

variable {clock : Action σ Number} {s t : Session σ} {time : Number} {ms : Int} {date : Date}
  {timeOfDay : Clock}

theorem resolve_helper {h : Helper} {text : String} (hread : clock s = (.ok time, t))
    (htext : h.textAt time = .ok text) :
    Argument.resolve clock (.helper h) s = (.ok (.scalar (.text text)), t) := by
  unfold Argument.resolve
  rw [bind_apply, hread, next_ok, htext]
  rfl

theorem ReadsMoment.tells (hreads : ReadsMoment clock s t time ms date timeOfDay) :
    Tells clock s t date timeOfDay (String.ofList (stamp date timeOfDay)) := by
  rcases hreads with ⟨hread, hms, hmoment, hplain⟩
  have hnow : Helper.textAt .now time = .ok (String.ofList (stamp date timeOfDay)) := by
    unfold Helper.textAt leadingText
    rw [hms, ← hmoment.take_stamp hplain]
  have htoday : Helper.textAt .today time = .ok (String.ofList (dateText date)) := by
    unfold Helper.textAt leadingText
    rw [hms, ← hmoment.take_date hplain 'T']
  constructor
  case now => exact resolve_helper hread hnow
  case stamped => exact String.toList_ofList
  case today =>
    refine ⟨_, String.ofList (' ' :: secondsText timeOfDay), resolve_helper hread htoday,
      String.toList_ofList, ?_⟩
    rw [hmoment.stamp_eq hplain, String.ofList_append]

end Telling

/-- The text of `now()` is in the order of time: it never comes before the one of an earlier clock,
and it is the same text just if both clocks are in the same second. -/
theorem now_keeps_order {clock : Action σ Number} {later : Action τ Number} {s t : Session σ}
    {s' t' : Session τ} {time time' : Number} {ms ms' : Int} {date date' : Date}
    {timeOfDay timeOfDay' : Clock} (hreads : ReadsMoment clock s t time ms date timeOfDay)
    (hreads' : ReadsMoment later s' t' time' ms' date' timeOfDay') (hle : time.le time' = true) :
    exists now now', Tells clock s t date timeOfDay now ∧ Tells later s' t' date' timeOfDay' now' ∧
      ¬ now' < now ∧ (now = now' ↔ ms / 1000 = ms' / 1000) := by
  have hms := milliseconds?_mono hle hreads.milliseconds hreads'.milliseconds
  refine ⟨_, _, hreads.tells, hreads'.tells, ?_⟩
  rw [String.lt_iff, String.toList_ofList, String.toList_ofList, String.ofList_inj]
  rcases Int.lt_or_eq_of_le (Int.ediv_le_ediv (by decide : (0 : Int) < 1000) hms) with hlt | hsame
  · have hstamps := stamp_lt hreads.moment hreads.plain hreads'.moment hreads'.plain hlt
    refine ⟨List.lt_asymm hstamps, iff_of_false ?_ (Int.ne_of_lt hlt)⟩
    intro hequal
    rw [hequal] at hstamps
    exact List.lt_irrefl _ hstamps
  · have hstamps := stamp_eq_of_second hreads.moment hreads'.moment hsame
    rw [hstamps]
    exact ⟨List.lt_irrefl _, iff_of_true rfl hsame⟩

/-- The last second before 1970 and a leap day. -/
theorem now_keeps_order_leap_day :
    let before : Action Unit Number := pure (Number.ofInt (-1))
    let after : Action Unit Number := pure (Number.ofNat 951827696789)
    let start : Session Unit := ⟨(), []⟩
    exists now now',
      Tells before start start ⟨1969, 12, 31⟩ ⟨23, 59, 59, 999⟩ now ∧
        Tells after start start ⟨2000, 2, 29⟩ ⟨12, 34, 56, 789⟩ now' ∧
        ¬ now' < now ∧ (now = now' ↔ (-1 : Int) / 1000 = 951827696789 / 1000) := by
  intro before after start
  have hday : IsDay (-1) ⟨1969, 12, 31⟩ := isDay_iff.mpr (by decide)
  have hday' : IsDay 11016 ⟨2000, 2, 29⟩ := isDay_iff.mpr (by decide)
  have hreads : ReadsMoment before start start (Number.ofInt (-1)) (-1) ⟨1969, 12, 31⟩
      ⟨23, 59, 59, 999⟩ := by
    refine ⟨rfl, by decide +kernel, ⟨?_, -1, hday, by decide⟩, by decide⟩
    constructor <;> decide
  have hreads' : ReadsMoment after start start (Number.ofNat 951827696789) 951827696789
      ⟨2000, 2, 29⟩ ⟨12, 34, 56, 789⟩ := by
    refine ⟨rfl, by decide +kernel, ⟨?_, 11016, hday', by decide⟩, by decide⟩
    constructor <;> decide
  exact now_keeps_order hreads hreads' (by decide +kernel)

end Query

end OperatorConsole
