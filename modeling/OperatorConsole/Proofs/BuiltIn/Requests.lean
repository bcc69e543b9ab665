import OperatorConsole.Proofs.Action.Told
import OperatorConsole.Proofs.BuiltIn.Pruning
import OperatorConsole.Proofs.Config.Retention
import OperatorConsole.Proofs.Number.Monotone
import OperatorConsole.Proofs.Options.Validated
import OperatorConsole.Proofs.Value.Numeric

/-!
# Requests to prune

What a request asks of the store: one count or one deletion, up to a time that lies at least a day
back.  The options of the request are looked at several times, by the rules when they are checked
and by the command when it runs, and a value that one of them takes for a number of days is taken
for the same number by the others.

A request is dry if it says nothing about that, and otherwise if it checks the box.
-/

namespace OperatorConsole

/-! ## Calls of the store -/

inductive StoreCall where
  | count (cutoff : Number)
  | delete (cutoff : Number)
  deriving DecidableEq

def AuditStore.watched (store : AuditStore σ) : AuditStore (Watched σ StoreCall) where
  countOlderThan := fun cutoff =>
    Action.observe (fun _ => .count cutoff) (store.countOlderThan cutoff)
  deleteOlderThan := fun cutoff =>
    Action.observe (fun _ => .delete cutoff) (store.deleteOlderThan cutoff)

/-- Beside its value, an observed action leaves one event. -/
theorem Action.events_observe_pure {event : ε} {a : Action σ α} {f : α -> β}
    (s : Session (Watched σ ε)) :
    ((Action.observe (fun _ => event) a >>= fun x => pure (f x)) s).2.host.events =
      s.host.events ++ [event] := by
  have hobserved : Action.observe (fun _ => event) a s = ((a s.forget).1,
      ⟨⟨(a s.forget).2.host, s.host.events ++ [event]⟩, (a s.forget).2.journal⟩) := rfl
  rw [Action.bind_apply, hobserved]
  cases (a s.forget).1 with
  | ok x => rfl
  | error failure => rfl

/-! ## Days -/

namespace Config

/-- The configuration was accepted when it was loaded, with a file or without. -/
inductive IsLoaded : Config -> Prop where
  | plain {overrides : Value} {given : Variables} {config : Config}
      (hload : load overrides given = .ok config) : IsLoaded config
  | file {path : String} {content : Option String} {overrides : Value} {given : Variables}
      {config : Config} (hload : loadFile path content overrides given = .ok config) :
      IsLoaded config

theorem IsLoaded.isRetaining {config : Config} (hloaded : config.IsLoaded) :
    config.IsRetaining := by
  cases hloaded with
  | plain hload => exact loadOver_yields _ _ _ config hload
  | file hload =>
      unfold loadFile at hload
      split at hload
      case h_1 => cases hload
      case h_2 document _ =>
          exact Yields.behind (fun settings => loadOver_yields _ _ _) config hload

end Config

namespace Number

theorem isPositive_of_lt {x : Number} (hwhole : x.isInteger = true)
    (hpositive : Number.lt 0 x = true) : x.IsPositive := by
  rcases lt_iff.mp hpositive with ⟨a, b, ha, hb, hab⟩
  have hbelow : x.lt 0 = false := by
    refine not_lt_of_le (le_iff.mpr ⟨a, b, ha, hb, Int.le_of_lt hab⟩)
  have hother : x.equals 0 = false := by
    unfold equals
    rw [ha, hb]
    exact decide_eq_false (Int.ne_of_gt hab)
  refine isPositive_iff.mpr ⟨isCount_iff.mpr ?_, hother⟩
  rw [hwhole, hbelow]
  rfl

theorem lt_zero_one : Number.lt 0 1 = true := by
  decide +kernel

end Number

theorem Text.WritesDecimal.not_blank {s : String} {d : Decimal} (hwrites : WritesDecimal s d) :
    isBlankString s = false := by
  rcases hwrites with ⟨front, body, back, hs, _, _, hbody⟩
  rcases List.exists_mem_of_ne_nil body hbody.ne_nil with ⟨c, hc⟩
  rw [Bool.eq_false_iff]
  intro hblank
  have hall := List.all_eq_true.mp hblank c (by rw [hs]; simp [hc])
  rw [hbody.not_blank c hc] at hall
  cases hall

theorem Value.Writes.supplied {v : Value} {x : Number} (hwrites : v.Writes x) :
    ¬ v.IsUnsupplied := by
  rw [← isEmpty_iff, Bool.not_eq_true]
  cases hwrites with
  | number => rfl
  | text hdecimal => exact hdecimal.not_blank

theorem Value.numeric?_of_unsupplied {v : Value} (hunsupplied : v.IsUnsupplied) :
    v.numeric? = none := by
  cases hnumeric : v.numeric? with
  | none => rfl
  | some x => exact absurd hunsupplied (numeric?_eq_some_iff.mp hnumeric).supplied

namespace AuditPrune

variable {prune : AuditPrune σ} {values : Value}

theorem daysIn_of_unsupplied (hunsupplied : (answer values "days").IsUnsupplied) :
    prune.daysIn values = prune.retentionDays := by
  unfold daysIn daysOf
  rw [Value.numeric?_of_unsupplied hunsupplied]
  rfl

/-- Days that are supplied and accepted are a whole number within the bounds of the option. -/
theorem Accepts.supplied_days (haccepts : prune.Accepts values)
    (hsupplied : ¬ (answer values "days").IsUnsupplied) :
    (answer values "days").numeric? = some (prune.daysIn values) ∧
      (prune.daysIn values).isInteger = true ∧ Number.le 1 (prune.daysIn values) = true ∧
      Number.le (prune.daysIn values) 3650 = true := by
  rcases haccepts.record with ⟨r, hr, hpasses⟩
  have hanswer : answer values "days" = r.get "days" := by
    unfold answer
    rw [hr]
    rfl
  rw [hanswer] at hsupplied
  have hcomplaint : (daysOption prune.retentionDays).complaint? (r.get "days") = none := by
    have hdays := List.findSome?_eq_none_iff.mp hpasses _ List.mem_cons_self
    rwa [OptionSpec.failure?_of_supplied hsupplied] at hdays
  have hrules : forall rule, rule ∈ dayRules -> rule.Admits (r.get "days") :=
    (OptionSpec.complaint?_eq_none_iff.mp hcomplaint).1
  rcases hrules ⟨.integer, none⟩ List.mem_cons_self with ⟨x, hx, hwhole⟩
  have hmin := OptionRule.holds_iff.mpr (hrules ⟨.min, some (.number 1)⟩
    (List.mem_cons_of_mem _ List.mem_cons_self))
  have hmax := OptionRule.holds_iff.mpr (hrules ⟨.max, some (.number 3650)⟩
    (List.mem_cons_of_mem _ (List.mem_cons_of_mem _ List.mem_cons_self)))
  rw [OptionRule.holds_min hx] at hmin
  rw [OptionRule.holds_max hx] at hmax
  have hdays : prune.daysIn values = x := by
    unfold daysIn daysOf
    rw [hanswer, hx]
    rfl
  rw [hdays, hanswer]
  exact ⟨hx, hwhole, hmin, hmax⟩

theorem Accepts.days_isPositive (haccepts : prune.Accepts values) {config : Config}
    (hretaining : config.IsRetaining)
    (hretention : prune.retentionDays = config.databaseLogging.keepLogsForDays) :
    (prune.daysIn values).IsPositive := by
  by_cases hunsupplied : (answer values "days").IsUnsupplied
  · rw [daysIn_of_unsupplied hunsupplied, hretention]
    exact Number.isPositive_of_lt hretaining.whole hretaining.positive
  · rcases haccepts.supplied_days hunsupplied with ⟨_, hwhole, hmin, _⟩
    exact Number.isPositive_of_lt hwhole (Number.lt_of_lt_of_le Number.lt_zero_one hmin)

/-! ## The last day -/

def dayLength : Nat :=
  Calendar.dayMs.toNat

/-- A time lies less than a day before another one. -/
def IsOfLastDay (now time : Number) : Prop :=
  exists a b : Int, now.units? = some a ∧ time.units? = some b ∧ a < b + dayLength * Number.one

theorem ofInt_dayMs : Number.ofInt Calendar.dayMs = Number.ofNat dayLength := by
  unfold Number.ofInt Number.ofNat
  rw [show decide (Calendar.dayMs < 0) = false from by decide,
    show Calendar.dayMs.natAbs = dayLength from by decide]

theorem cutoff_spares {now days time : Number} (hdays : days.IsPositive)
    (htime : IsOfLastDay now time) : time.lt (cutoff now days) = false := by
  rcases hdays with ⟨n, hpos, hexact, rfl⟩
  rcases htime with ⟨a, b, ha, hb, hnear⟩
  have hday : Number.IsExact dayLength := Number.isExact_of_le (by decide)
  unfold cutoff
  rw [ofInt_dayMs]
  refine Number.not_lt_of_le ?_
  rcases Number.units_of_mul hexact hpos hday with hinfinite | ⟨c, hc, hlong⟩
  · rw [hinfinite, Number.sub_infinity ha]
    exact Number.infinity_le hb
  · refine Number.sub_le ha hc hb ?_
    omega

/-! ## Watched runs -/

def watched (prune : AuditPrune σ) : AuditPrune (Watched σ StoreCall) :=
  ⟨prune.store.watched, prune.retentionDays, Action.watch prune.clock⟩

/-- The calls of the store that a run makes, the earliest first. -/
def calls (prune : AuditPrune σ) (values : Value) (s : Session σ) : List StoreCall :=
  (prune.watched.execute values s.watched).2.host.events

/-- Noting the calls of runs with these values changes nothing about the runs. -/
def NotesUnseen (prune : AuditPrune σ) (values : Value) : Prop :=
  forall s : Session σ, prune.execute values s = ((prune.watched.execute values s.watched).1,
    (prune.watched.execute values s.watched).2.forget)

theorem notesUnseen (prune : AuditPrune σ) (values : Value) : prune.NotesUnseen values := by
  intro s
  have hagree : Action.Agree (Action.Tracks fun _ => True) (fun _ => True) (fun _ => True)
      (prune.watched.execute values) (prune.execute values) := by
    unfold execute
    refine .bind (.settle (Ends.trivial _)) fun days _ => ?_
    refine .bind (.settle (Ends.trivial _)) fun dryRun _ => ?_
    refine .bind (.watch fun _ => Ends.trivial _) fun now _ => ?_
    refine .bind (.settle (Ends.trivial _)) fun before _ => ?_
    refine .ite (fun _ => ?_) (fun _ => ?_)
    · refine .bind (Action.Survives.agree fun _ _ _ => True.intro) fun count _ => ?_
      exact .pure True.intro
    · refine .bind (Action.Survives.agree fun _ _ _ => True.intro) fun count _ => ?_
      exact .pure True.intro
  exact (hagree.forget_eq s.watched).symm

def callAt (prune : AuditPrune σ) (values : Value) (now : Number) : StoreCall :=
  if isDry values then .count (cutoff now (prune.daysIn values))
  else .delete (cutoff now (prune.daysIn values))

/-- A run makes one call, and none if its cutoff has no date or if there is no time. -/
theorem calls_eq (haccepts : prune.Accepts values) (s : Session σ) :
    prune.calls values s =
      match (prune.clock s).1 with
      | .ok now =>
          if (Calendar.displayText (cutoff now (prune.daysIn values))).isOk then
            [prune.callAt values now]
          else []
      | .error _ => [] := by
  have hdays : prune.watched.daysIn values = prune.daysIn values := rfl
  have hclock : prune.watched.clock s.watched =
      ((prune.clock s).1, ⟨⟨(prune.clock s).2.host, []⟩, (prune.clock s).2.journal⟩) := rfl
  unfold calls
  rw [execute_eq prune.watched haccepts.answerOf, Action.bind_apply, hclock]
  cases hnow : (prune.clock s).1 with
  | error failure => rfl
  | ok now =>
      dsimp only
      rw [Action.next_ok, executeAt, hdays, Action.bind_apply, Action.settle_apply]
      cases Calendar.displayText (cutoff now (prune.daysIn values)) with
      | error failure => rfl
      | ok before =>
          unfold callAt
          rw [Action.next_ok]
          cases isDry values with
          | true =>
              rw [if_pos rfl]
              exact Action.events_observe_pure _
          | false =>
              rw [if_neg Bool.false_ne_true]
              exact Action.events_observe_pure _

/-! ## One call for each run -/

/-- For how many days the values have entries kept: as long as the command keeps them by itself if
they supply no days, else for the number that they write. -/
inductive KeepsFor (prune : AuditPrune σ) (values : Value) : Number -> Prop where
  | retained (hunsupplied : (answer values "days").IsUnsupplied) :
      KeepsFor prune values prune.retentionDays
  | written {days : Number} (hsupplied : ¬ (answer values "days").IsUnsupplied)
      (hwrites : (answer values "days").Writes days) : KeepsFor prune values days

theorem Accepts.keepsFor_iff (haccepts : prune.Accepts values) {days : Number} :
    prune.KeepsFor values days ↔ days = prune.daysIn values := by
  by_cases hunsupplied : (answer values "days").IsUnsupplied
  · rw [daysIn_of_unsupplied hunsupplied]
    constructor
    · intro hkeeps
      cases hkeeps with
      | retained => rfl
      | written hsupplied => exact absurd hunsupplied hsupplied
    · rintro rfl
      exact .retained hunsupplied
  · have hnumeric := (haccepts.supplied_days hunsupplied).1
    constructor
    · intro hkeeps
      cases hkeeps with
      | retained h => exact absurd h hunsupplied
      | written _ hwrites =>
          rw [Value.numeric?_eq_some_iff.mpr hwrites] at hnumeric
          exact Option.some.inj hnumeric
    · rintro rfl
      exact .written hunsupplied (Value.numeric?_eq_some_iff.mp hnumeric)

/-- A text of a whole number has entries kept for so many days, however it writes the number. -/
theorem Accepts.daysIn_of_natural (haccepts : prune.Accepts values) {text : String} {d : Decimal}
    {n : Nat} (htext : answer values "days" = .text text) (hwrites : Text.WritesDecimal text d)
    (hnatural : d.IsNatural n) : prune.daysIn values = Number.ofNat n := by
  have hsupplied : ¬ (answer values "days").IsUnsupplied := by
    rw [htext, ← Value.isEmpty_iff, Bool.not_eq_true]
    exact hwrites.not_blank
  have hnumeric := (haccepts.supplied_days hsupplied).1
  rw [htext] at hnumeric
  generalize prune.daysIn values = days at hnumeric ⊢
  generalize hv : Value.text text = v at hnumeric
  cases Value.numeric?_eq_some_iff.mp hnumeric with
  | number => cases hv
  | @text text' d' hwrites' hfinite =>
      cases hv
      have hsame := Text.writesDecimal_iff.mp hwrites'
      rw [Text.writesDecimal_iff.mp hwrites] at hsame
      cases hsame
      exact hnatural.toNumber_of_finite hfinite

/-- Whatever values are accepted, under whatever configuration was loaded, a run at a time for
which the cutoff has a date makes one call of the store, as its notes tell.  It counts or deletes
the entries that are older than the whole number of days that the values write or the configuration
keeps, at least a day, so that no entry of the last day goes. -/
theorem execute_asks_once {config : Config} (hloaded : config.IsLoaded)
    (hretention : prune.retentionDays = config.databaseLogging.keepLogsForDays)
    (haccepts : prune.Accepts values) :
    prune.NotesUnseen values ∧
    exists days : Number, days.IsPositive ∧ (forall x, prune.KeepsFor values x ↔ x = days) ∧
      (forall text d n, answer values "days" = .text text -> Text.WritesDecimal text d ->
        d.IsNatural n -> days = Number.ofNat n) ∧
      forall (s : Session σ) (now : Number), (prune.clock s).1 = .ok now ->
        (Calendar.milliseconds? (cutoff now days)).isSome = true ->
        prune.calls values s =
            [if isDry values then .count (cutoff now days) else .delete (cutoff now days)] ∧
          forall (log : ExecutionLog) (e : Execution), e ∈ log.executions ->
            IsOfLastDay now e.createdAt ->
            e ∈ (log.deleteOlderThan (cutoff now days)).1.executions := by
  have hdays := haccepts.days_isPositive hloaded.isRetaining hretention
  refine ⟨prune.notesUnseen values, prune.daysIn values, hdays, fun _ => haccepts.keepsFor_iff,
    fun _ _ _ htext hwrites hnatural => haccepts.daysIn_of_natural htext hwrites hnatural, ?_⟩
  intro s now hnow htime
  constructor
  · rcases Calendar.displayText_of_milliseconds htime with ⟨before, hbefore⟩
    rw [calls_eq haccepts, hnow]
    dsimp only
    rw [hbefore]
    rfl
  · intro log e he hnear
    refine List.mem_filter.mpr ⟨he, ?_⟩
    rw [ExecutionLog.isOlderThan, cutoff_spares hdays hnear]
    rfl

def standardConfig : Config :=
  ⟨true, Config.standardEnvironment, Config.standardTime, true, [], .standard, .standard, .standard⟩

/-- One day, written with a sign, an exponent and blanks. -/
def spelledValues : Record :=
  .ofFields [("days", .text " +.1e1 "), ("dry_run", .text " No ")]

theorem execute_asks_once_spelled :
    standardConfig.IsLoaded ∧
      samplePrune.retentionDays = standardConfig.databaseLogging.keepLogsForDays ∧
      samplePrune.Accepts spelledValues.toValue ∧
      samplePrune.calls spelledValues.toValue sampleSession = [.delete 2000] := by
  have hloaded : standardConfig.IsLoaded :=
    @Config.IsLoaded.plain (.ofFields []) [] _ (eq_ok_of_toOption (by decide +kernel))
  have hretention : samplePrune.retentionDays = standardConfig.databaseLogging.keepLogsForDays :=
    rfl
  have haccepts : samplePrune.Accepts spelledValues.toValue :=
    accepts_of_passing sampleSession (by decide +kernel)
  rcases execute_asks_once hloaded hretention haccepts with ⟨_, days, _, _, hnatural, hcalls⟩
  have hdays : days = Number.ofNat 1 :=
    hnatural " +.1e1 " ⟨false, 1, 0⟩ 1 rfl (Text.writesDecimal_iff.mpr (by decide)) ⟨rfl, rfl⟩
  have hcutoff : cutoff 86402000 (Number.ofNat 1) = 2000 := by decide +kernel
  have htime : (Calendar.milliseconds? 2000).isSome = true := by decide +kernel
  rw [hdays] at hcalls
  have hcall := (hcalls sampleSession 86402000 rfl (by rw [hcutoff]; exact htime)).1
  rw [hcutoff, if_neg (by decide)] at hcall
  exact ⟨hloaded, hretention, haccepts, hcall⟩

/-! ## Deletions -/

/-- The values that check a box: truth, the number one and the words for either. -/
inductive ChecksBox : Value -> Prop where
  | bool : ChecksBox (.bool true)
  | number {x : Number} (hone : x.equals 1 = true) : ChecksBox (.number x)
  | text {s : String}
      (hword : Text.lowerString (Text.trimString s) ∈ ["1", "true", "yes", "on"]) :
      ChecksBox (.text s)

theorem isChecked_iff {v : Value} : isChecked v = true ↔ ChecksBox v := by
  constructor
  · intro hchecked
    cases v with
    | bool b =>
        cases hchecked
        exact .bool
    | number x => exact .number hchecked
    | text s =>
        rw [isChecked, checkedWords, List.contains_iff_mem] at hchecked
        exact .text hchecked
    | _ => cases hchecked
  · intro hchecks
    cases hchecks with
    | bool => rfl
    | number hone => exact hone
    | text hword =>
        rw [isChecked, checkedWords, List.contains_iff_mem]
        exact hword

/-- The values that a run is handed for a request: its own, and the defaults for those that it
leaves out. -/
def filled (prune : AuditPrune σ) (request : Record) : Value :=
  (Options.applyDefaults request (registered prune.retentionDays).options).toValue

/-- Only where a request has nothing at all for the box, the box is checked for it. -/
theorem answer_filled (prune : AuditPrune σ) (request : Record) :
    answer (prune.filled request) "dry_run" =
      if request.get "dry_run" = .absent then .bool true else request.get "dry_run" := by
  have hanswer : answer (prune.filled request) "dry_run" =
      (Options.applyDefaults request (registered prune.retentionDays).options).get "dry_run" := rfl
  have hresolved : Options.resolved request dryRunOption =
      if request.get "dry_run" = .absent then .bool true else request.get "dry_run" := by
    unfold Options.resolved
    rw [show dryRunOption.key = "dry_run" from rfl]
    split
    case h_1 habsent => rw [if_pos habsent]; rfl
    case h_2 hpresent => rw [if_neg hpresent]
  have hsome : Options.resolved request dryRunOption ≠ .absent := by
    rw [hresolved]
    split
    case isTrue => exact Value.noConfusion
    case isFalse hpresent => exact hpresent
  rw [hanswer, ← hresolved]
  unfold Options.applyDefaults registered
  rw [List.foldl_cons, List.foldl_cons, List.foldl_nil]
  generalize Options.resolved request dryRunOption = v at hsome ⊢
  refine Record.get_own ?_
  cases v with
  | absent => exact absurd rfl hsome
  | _ => exact (Record.own?_assign _ _ _ (by decide)).trans (if_pos rfl)

/-- A run deletes entries for a request only if the request has something for the box that does not
check it, null and blank text included, and then it does so whenever its cutoff has a date. -/
theorem execute_deletes {request : Record} (haccepts : prune.Accepts (prune.filled request))
    (s : Session σ) :
    ((exists cutoff, .delete cutoff ∈ prune.calls (prune.filled request) s) ->
      request.get "dry_run" ≠ .absent ∧ ¬ ChecksBox (request.get "dry_run")) ∧
    (request.get "dry_run" ≠ .absent -> ¬ ChecksBox (request.get "dry_run") ->
      forall now, (prune.clock s).1 = .ok now ->
        (Calendar.milliseconds? (cutoff now (prune.daysIn (prune.filled request)))).isSome = true ->
        prune.calls (prune.filled request) s =
          [.delete (cutoff now (prune.daysIn (prune.filled request)))]) := by
  have hdry : isDry (prune.filled request) = false ↔
      request.get "dry_run" ≠ .absent ∧ ¬ ChecksBox (request.get "dry_run") := by
    unfold isDry
    rw [answer_filled, ← isChecked_iff]
    split
    case isTrue habsent => simp [habsent, isChecked]
    case isFalse hpresent => simp [hpresent]
  rw [calls_eq haccepts]
  constructor
  · rintro ⟨time, hmem⟩
    rw [← hdry]
    split at hmem
    case h_2 => cases hmem
    case h_1 now _ =>
        split at hmem
        case isFalse => cases hmem
        case isTrue =>
            have hcall := List.mem_singleton.mp hmem
            unfold callAt at hcall
            cases hchecked : isDry (prune.filled request) with
            | false => rfl
            | true =>
                rw [hchecked, if_pos rfl] at hcall
                cases hcall
  · intro hpresent hunchecked now hnow htime
    rcases Calendar.displayText_of_milliseconds htime with ⟨before, hbefore⟩
    rw [hnow]
    dsimp only
    rw [hbefore, callAt, hdry.mpr ⟨hpresent, hunchecked⟩]
    rfl

def boxRequest (box : Value) : Record :=
  .ofFields [("days", .text "1"), ("dry_run", box)]

theorem execute_deletes_unchecked :
    samplePrune.Accepts (samplePrune.filled (boxRequest (.text "no"))) ∧
      samplePrune.calls (samplePrune.filled (boxRequest (.text "no"))) sampleSession =
        [.delete 2000] := by
  have haccepts : samplePrune.Accepts (samplePrune.filled (boxRequest (.text "no"))) :=
    accepts_of_passing sampleSession (by decide +kernel)
  have hcutoff : cutoff 86402000
      (samplePrune.daysIn (samplePrune.filled (boxRequest (.text "no")))) = 2000 := by
    decide +kernel
  have hunchecked : ¬ ChecksBox ((boxRequest (.text "no")).get "dry_run") := by
    rw [← isChecked_iff]
    decide
  have hcalls := (execute_deletes haccepts sampleSession).2 (by decide) hunchecked 86402000 rfl
    (by rw [hcutoff]; decide +kernel)
  rw [hcutoff] at hcalls
  exact ⟨haccepts, hcalls⟩

/-- Null and blank text count as not supplied, and yet a request with one of them for the box
deletes entries. -/
theorem unsupplied_box_deletes :
    Value.IsUnsupplied .null ∧ Value.IsUnsupplied (.text " ") ∧
      samplePrune.Accepts (samplePrune.filled (boxRequest .null)) ∧
      samplePrune.calls (samplePrune.filled (boxRequest .null)) sampleSession = [.delete 2000] ∧
      samplePrune.Accepts (samplePrune.filled (boxRequest (.text " "))) ∧
      samplePrune.calls (samplePrune.filled (boxRequest (.text " "))) sampleSession =
        [.delete 2000] :=
  ⟨Value.isEmpty_iff.mp rfl, Value.isEmpty_iff.mp (by decide),
    accepts_of_passing sampleSession (by decide +kernel), by decide +kernel,
    accepts_of_passing sampleSession (by decide +kernel), by decide +kernel⟩

end AuditPrune

end OperatorConsole
