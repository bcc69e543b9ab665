import OperatorConsole.Proofs.BuiltIn.AuditPrune
import OperatorConsole.Proofs.ExecutionLog.Kept

/-!
# Dry runs

The pruning command asks an execution log for a count or has it drop executions, depending on
whether the dry run is checked.  A dry run tells how many executions a run with the same days
drops at the same time, and leaves the log as it is.
-/

namespace OperatorConsole

namespace ExecutionLog

theorem deleteOlderThan_executions {log : ExecutionLog} (htimed : log.IsTimed) {cutoff : Number}
    (hcutoff : cutoff.isNaN = false) :
    (log.deleteOlderThan cutoff).1.executions =
      log.executions.filter fun e => Number.le cutoff e.createdAt := by
  apply List.filter_congr
  intro e he
  exact (Number.le_eq_not_lt (htimed e he) hcutoff).symm

end ExecutionLog

theorem LogAccess.Holds.of_read {access : LogAccess σ} {host host' : σ} {log : ExecutionLog}
    (hholds : access.Holds host log) (hread : access.read host' = access.read host) :
    access.Holds host' log := by
  unfold Holds
  rw [hread]
  exact hholds

theorem Calendar.not_nan_of_milliseconds {time : Number}
    (htime : (milliseconds? time).isSome = true) : time.isNaN = false := by
  cases time with
  | nan => cases htime
  | infinity negative => rfl
  | finite negative rank => rfl

theorem Calendar.displayText_of_milliseconds {time : Number}
    (htime : (milliseconds? time).isSome = true) : exists text, displayText time = .ok text := by
  rcases Option.isSome_iff_exists.mp htime with ⟨ms, hms⟩
  unfold displayText leadingText
  rw [hms]
  exact ⟨_, rfl⟩

namespace AuditPrune

/-! ## Options of a run -/

/-- The option values that are accepted for a run. -/
def Accepts (prune : AuditPrune σ) (values : Value) : Prop :=
  exists s, (prune.command.validate values s).1 = .ok ()

def answer (values : Value) (key : String) : Value :=
  ((Record.ofValue? values).map (·.get key)).getD .absent

/-- For how many days a run keeps entries. -/
def daysIn (prune : AuditPrune σ) (values : Value) : Number :=
  prune.daysOf (answer values "days")

def isDry (values : Value) : Bool :=
  isChecked (answer values "dry_run")

/-- What is accepted answers to the keys of the options, and no option complains about it. -/
theorem Accepts.record {prune : AuditPrune σ} {values : Value} (haccepts : prune.Accepts values) :
    exists r, Record.ofValue? values = some r ∧
      Options.failure? r (registered prune.retentionDays).options = none := by
  rcases haccepts with ⟨s, hvalid⟩
  rcases Action.bind_ok hvalid with ⟨_, s', _, hvalid'⟩
  rcases Action.bind_ok hvalid' with ⟨schema, s'', hschema, hvalid''⟩
  cases hschema
  rcases Action.bind_ok hvalid'' with ⟨r, _, hgiven, hpasses⟩
  rw [Action.settle_apply] at hgiven hpasses
  unfold Options.given at hgiven
  cases hr : Record.ofValue? values with
  | none =>
      rw [hr] at hgiven
      cases hgiven
  | some answering =>
      rw [hr] at hgiven
      cases hgiven
      refine ⟨r, rfl, ?_⟩
      unfold Options.validate at hpasses
      split at hpasses
      · cases hpasses
      · rename_i hnone
        exact hnone

theorem Accepts.answerOf {prune : AuditPrune σ} {values : Value} (haccepts : prune.Accepts values)
    (key : String) : Failure.answerOf values key = .ok (answer values key) := by
  rcases haccepts.record with ⟨r, hr, _⟩
  unfold Failure.answerOf answer
  rw [hr]
  rfl

theorem accepts_of_passing {prune : AuditPrune σ} (s : Session σ) {r : Record}
    (hpasses : Options.failure? r (registered prune.retentionDays).options = none) :
    prune.Accepts r.toValue := by
  refine ⟨s, ?_⟩
  change Options.validate r (registered prune.retentionDays).options = .ok ()
  rw [Options.validate, hpasses]

/-! ## Single runs -/

def rangeLine (days : Number) (before : String) : String :=
  s!"Entries older than {days.toText} days (before {before})"

def preview (days : Number) (before : String) (count : Number) : CommandResult :=
  .success (Report.page ["📊 Execution log cleanup", "🔍 DRY RUN - no entries will be deleted",
    rangeLine days before, s!"Would delete: {count.toText} entries"])

def deletion (days : Number) (before : String) (count : Number) : CommandResult :=
  .success (Report.page ["📊 Execution log cleanup", rangeLine days before,
    s!"✅ Deleted: {count.toText} entries"])

def Shows (prune : AuditPrune σ) (access : LogAccess σ) (now : Number) : Prop :=
  forall s, (prune.clock s).1 = .ok now ∧ access.read (prune.clock s).2.host = access.read s.host

/-- Two runs keep entries for the same days, and one of them is dry and the other is not. -/
structure Previews (prune : AuditPrune σ) (dry real : Value) : Prop where
  dryAccepted : prune.Accepts dry
  realAccepted : prune.Accepts real
  isDry : isDry dry = true
  isReal : AuditPrune.isDry real = false
  sameDays : prune.daysIn real = prune.daysIn dry

variable {prune : AuditPrune σ} {access : LogAccess σ} {log : ExecutionLog} {now : Number}
  {values : Value} {before : String}

def executeAt (prune : AuditPrune σ) (values : Value) (now : Number) : Action σ CommandResult := do
  let before ← Action.settle (Calendar.displayText (cutoff now (prune.daysIn values)))
  if isDry values then
    let count ← prune.store.countOlderThan (cutoff now (prune.daysIn values))
    return preview (prune.daysIn values) before count
  else
    let count ← prune.store.deleteOlderThan (cutoff now (prune.daysIn values))
    return deletion (prune.daysIn values) before count

theorem execute_eq (prune : AuditPrune σ)
    (hanswers : forall key, Failure.answerOf values key = .ok (answer values key)) :
    prune.execute values = prune.clock >>= prune.executeAt values := by
  funext s
  unfold execute
  rw [hanswers, hanswers, Action.bind_apply, Action.settle_apply, Action.next_ok]
  dsimp only
  rw [Action.bind_apply, Action.settle_apply, Action.next_ok]
  rfl

theorem execute_apply (hanswers : forall key, Failure.answerOf values key = .ok (answer values key))
    (hbefore : Calendar.displayText (cutoff now (prune.daysIn values)) = .ok before)
    {s : Session σ} (hnow : (prune.clock s).1 = .ok now) :
    prune.execute values s =
      (if isDry values then
        prune.store.countOlderThan (cutoff now (prune.daysIn values)) >>= fun count =>
          pure (preview (prune.daysIn values) before count)
      else
        prune.store.deleteOlderThan (cutoff now (prune.daysIn values)) >>= fun count =>
          pure (deletion (prune.daysIn values) before count)) (prune.clock s).2 := by
  rw [execute_eq prune hanswers, Action.bind_apply, Action.next_of_ok hnow, executeAt,
    Action.bind_apply, Action.settle_apply, hbefore, Action.next_ok]

theorem execute_dry (hstore : prune.store = access.store) (hclock : prune.Shows access now)
    (haccepts : prune.Accepts values) (hdry : isDry values = true)
    (hbefore : Calendar.displayText (cutoff now (prune.daysIn values)) = .ok before)
    {s : Session σ} (hholds : access.Holds s.host log) :
    (prune.execute values s).1 = .ok (preview (prune.daysIn values) before
        (Number.ofNat (log.countOlderThan (cutoff now (prune.daysIn values))))) ∧
      access.read (prune.execute values s).2.host = access.read s.host := by
  rcases hclock s with ⟨hnow, hread⟩
  have hcount := (hholds.of_read hread).countOlderThan (s := (prune.clock s).2)
    (cutoff now (prune.daysIn values))
  rw [execute_apply haccepts.answerOf hbefore hnow, if_pos hdry, Action.bind_apply, hstore, hcount,
    Action.next_ok]
  exact ⟨rfl, hread⟩

theorem execute_real (hstore : prune.store = access.store) (hlawful : access.IsLawful)
    (hclock : prune.Shows access now) (haccepts : prune.Accepts values)
    (hreal : isDry values = false)
    (hbefore : Calendar.displayText (cutoff now (prune.daysIn values)) = .ok before)
    {s : Session σ} (hholds : access.Holds s.host log) :
    (prune.execute values s).1 = .ok (deletion (prune.daysIn values) before
        (Number.ofNat (log.countOlderThan (cutoff now (prune.daysIn values))))) ∧
      access.Holds (prune.execute values s).2.host
        (log.deleteOlderThan (cutoff now (prune.daysIn values))).1 := by
  rcases hclock s with ⟨hnow, hread⟩
  rcases (hholds.of_read hread).deleteOlderThan (s := (prune.clock s).2) hlawful
    (cutoff now (prune.daysIn values)) with ⟨hcount, hnext⟩
  rw [execute_apply haccepts.answerOf hbefore hnow, if_neg (by simp [hreal]), Action.bind_apply, hstore,
    Action.next_of_ok hcount]
  exact ⟨rfl, hnext⟩

/-! ## Runs one after the other -/

/-- A dry run tells the number that the run after it drops, and changes nothing.  Behind that run
are the executions from the cutoff on, and a further dry run tells zero. -/
theorem dry_run_tells (hstore : prune.store = access.store) (hlawful : access.IsLawful)
    (hclock : prune.Shows access now) {dry real : Value} (hpreviews : prune.Previews dry real)
    (htime : (Calendar.milliseconds? (cutoff now (prune.daysIn dry))).isSome = true)
    {s : Session σ} (hholds : access.Holds s.host log) (htimed : log.IsTimed) :
    exists before count pruned, count = Number.ofNat (log.countOlderThan
          (cutoff now (prune.daysIn dry))) ∧
        (prune.execute dry s).1 = .ok (preview (prune.daysIn dry) before count) ∧
        access.read (prune.execute dry s).2.host = access.read s.host ∧
        (prune.execute real (prune.execute dry s).2).1 =
          .ok (deletion (prune.daysIn dry) before count) ∧
        access.Holds (prune.execute real (prune.execute dry s).2).2.host pruned ∧
        pruned.executions = log.executions.filter
          (fun e => Number.le (cutoff now (prune.daysIn dry)) e.createdAt) ∧
        (prune.execute dry (prune.execute real (prune.execute dry s).2).2).1 =
          .ok (preview (prune.daysIn dry) before 0) := by
  rcases Calendar.displayText_of_milliseconds htime with ⟨before, hbefore⟩
  have hbefore' := hpreviews.sameDays.symm ▸ hbefore
  rcases execute_dry hstore hclock hpreviews.dryAccepted hpreviews.isDry hbefore hholds with
    ⟨hshown, hread⟩
  rcases execute_real hstore hlawful hclock hpreviews.realAccepted hpreviews.isReal hbefore'
    (hholds.of_read hread) with ⟨hdeleted, hpruned⟩
  rw [hpreviews.sameDays] at hdeleted hpruned
  rcases execute_dry hstore hclock hpreviews.dryAccepted hpreviews.isDry hbefore hpruned with
    ⟨hagain, _⟩
  have hcutoff := Calendar.not_nan_of_milliseconds htime
  rw [log.countOlderThan_deleteOlderThan (Number.le_self hcutoff)] at hagain
  exact ⟨before, _, _, rfl, hshown, hread, hdeleted, hpruned,
    ExecutionLog.deleteOlderThan_executions htimed hcutoff, hagain⟩

def sampleLog : ExecutionLog :=
  [1000, 2000, 3000].foldl (fun log time =>
    ((log.insert (LogAccess.sampleDraft (some time))).toOption.map Prod.fst).getD log) .empty

def samplePrune : AuditPrune LogConnection :=
  ⟨LogAccess.direct.store, defaultRetention, pure 86402000⟩

def sampleValues (dry : Bool) : Record :=
  .ofFields [("days", .text "1"), ("dry_run", .bool dry)]

def sampleSession : Session LogConnection :=
  ⟨(LogConnection.fresh true).withLog sampleLog, []⟩

theorem sampleValues_accepted (dry : Bool) :
    samplePrune.Accepts (sampleValues dry).toValue := by
  have hpasses : forall dry, Options.failure? (sampleValues dry)
    (registered samplePrune.retentionDays).options = none := by decide +kernel
  exact accepts_of_passing sampleSession (hpasses dry)

theorem sample_previews :
    samplePrune.Previews (sampleValues true).toValue (sampleValues false).toValue where
  dryAccepted := sampleValues_accepted true
  realAccepted := sampleValues_accepted false
  isDry := rfl
  isReal := rfl
  sameDays := rfl

theorem sampleLog_isTimed : sampleLog.IsTimed := by
  unfold ExecutionLog.IsTimed
  decide +kernel

/-- A day before the clock of the sample lies the second of its executions. -/
theorem dry_run_tells_sample :
    samplePrune.Shows LogAccess.direct 86402000 ∧
      exists before pruned,
        (samplePrune.execute (sampleValues true).toValue sampleSession).1 =
          .ok (preview 1 before 1) ∧
        (samplePrune.execute (sampleValues false).toValue
          (samplePrune.execute (sampleValues true).toValue sampleSession).2).1 =
          .ok (deletion 1 before 1) ∧
        pruned.executions.map Execution.id = [2, 3] ∧
        LogAccess.direct.Holds (samplePrune.execute (sampleValues false).toValue
          (samplePrune.execute (sampleValues true).toValue sampleSession).2).2.host pruned := by
  have hdays : samplePrune.daysIn (sampleValues true).toValue = 1 := by decide +kernel
  have hcutoff : cutoff 86402000 1 = 2000 := by decide +kernel
  have hcount : Number.ofNat (sampleLog.countOlderThan 2000) = 1 := by decide +kernel
  have hkept : (sampleLog.executions.filter
      fun e => Number.le 2000 e.createdAt).map Execution.id = [2, 3] := by decide +kernel
  have htime : (Calendar.milliseconds? 2000).isSome = true := by decide +kernel
  have hshows : samplePrune.Shows LogAccess.direct 86402000 := fun s => ⟨rfl, rfl⟩
  have hholds : LogAccess.direct.Holds sampleSession.host sampleLog := ⟨rfl, rfl⟩
  have htells := dry_run_tells rfl LogAccess.direct_lawful hshows sample_previews
    (by rw [hdays, hcutoff]; exact htime) hholds sampleLog_isTimed
  rw [hdays, hcutoff] at htells
  rcases htells with ⟨before, count, pruned, hcount', hdry, _, hreal, hpruned, hexecutions, _⟩
  rw [hcount', hcount] at hdry hreal
  rw [← hexecutions] at hkept
  exact ⟨hshows, before, pruned, hdry, hreal, hkept, hpruned⟩

end AuditPrune

end OperatorConsole
