import OperatorConsole.Proofs.ExecutionLog.History

/-!
# A log behind a host

A host holds a log as long as its connection is open.  Calls in any order leave it with the log
that their history makes, whose answers are told by the history alone.  A call that fails
leaves no trace.
-/

namespace OperatorConsole

namespace LogAccess

/-- What is written to the host is what is read from it. -/
def IsLawful (access : LogAccess σ) : Prop :=
  forall connection host, access.read (access.write connection host) = connection

def Holds (access : LogAccess σ) (host : σ) (log : ExecutionLog) : Prop :=
  (access.read host).isOpen = true ∧ (access.read host).database.log = some log

variable {access : LogAccess σ} {s : Session σ} {log : ExecutionLog}

/-! ## Single calls -/

theorem Holds.log_eq (hholds : access.Holds s.host log) : (access.read s.host).log = log := by
  rw [LogConnection.log, hholds.2]
  rfl

theorem Holds.ask (hholds : access.Holds s.host log) (question : ExecutionLog -> α) :
    access.ask question s = (.ok (question log), s) := by
  unfold LogAccess.ask LogConnection.query Action.ofHost
  dsimp only
  rw [if_pos hholds.1, hholds.log_eq]
  rfl

theorem Holds.change (hlawful : access.IsLawful) (hholds : access.Holds s.host log)
    {step : ExecutionLog -> Except StorageFailure (ExecutionLog × α)} {next : ExecutionLog}
    {answer : α} (hstep : step log = .ok (next, answer)) :
    (access.change step s).1 = .ok answer ∧ access.Holds (access.change step s).2.host next := by
  unfold LogAccess.change LogConnection.update Action.ofHost
  dsimp only
  rw [if_pos hholds.1, hholds.log_eq, hstep]
  refine ⟨rfl, ?_⟩
  change (access.read (access.write _ s.host)).isOpen = true ∧
    (access.read (access.write _ s.host)).database.log = some next
  rw [hlawful]
  exact ⟨hholds.1, rfl⟩

/-- A change that fails has changed nothing, whatever the connection. -/
theorem change_failed {step : ExecutionLog -> Except StorageFailure (ExecutionLog × α)}
    {failure : Failure} (hfailed : (access.change step s).1 = .error failure) :
    (access.change step s).2 = s ∧ exists reason, failure = .storage reason := by
  unfold LogAccess.change Action.ofHost at hfailed ⊢
  dsimp only at hfailed ⊢
  cases hupdate : (access.read s.host).update step with
  | ok changed =>
      rw [hupdate] at hfailed
      cases hfailed
  | error reason =>
      rw [hupdate] at hfailed
      cases hfailed
      exact ⟨rfl, reason, rfl⟩

theorem Holds.insert (hlawful : access.IsLawful) (hholds : access.Holds s.host log)
    {draft : ExecutionDraft} {next : ExecutionLog} {e : Execution}
    (hinsert : log.insert draft = .ok (next, e)) :
    (access.insert draft s).1 = .ok e ∧ access.Holds (access.insert draft s).2.host next :=
  hholds.change hlawful hinsert

theorem Holds.insert_refused (hholds : access.Holds s.host log) {draft : ExecutionDraft}
    {reason : StorageFailure} (hinsert : log.insert draft = .error reason) :
    access.insert draft s = (.error (.storage reason), s) := by
  unfold LogAccess.insert LogAccess.change LogConnection.update Action.ofHost
  dsimp only
  rw [if_pos hholds.1, hholds.log_eq, hinsert]
  rfl

theorem Holds.countOlderThan (hholds : access.Holds s.host log) (cutoff : Number) :
    access.store.countOlderThan cutoff s = (.ok (Number.ofNat (log.countOlderThan cutoff)), s) :=
  hholds.ask fun log => Number.ofNat (log.countOlderThan cutoff)

theorem Holds.deleteOlderThan (hlawful : access.IsLawful) (hholds : access.Holds s.host log)
    (cutoff : Number) :
    (access.store.deleteOlderThan cutoff s).1 =
        .ok (Number.ofNat (log.deleteOlderThan cutoff).2) ∧
      access.Holds (access.store.deleteOlderThan cutoff s).2.host
        (log.deleteOlderThan cutoff).1 :=
  hholds.change hlawful rfl

theorem sink_eq (access : LogAccess σ) (entry : AuditEntry) :
    access.sink entry = access.insert (.ofEntry entry) >>= fun _ => pure () :=
  rfl

end LogAccess

/-! ## Calls in any order -/

/-- A call that changes the log. An entry is recorded by inserting the draft that it makes. -/
inductive LogCall where
  | insert (draft : ExecutionDraft)
  | deleteOlderThan (cutoff : Number)

namespace LogAccess

def make (access : LogAccess σ) : LogCall -> Action σ LogEvent
  | .insert draft => do
      let e ← access.insert draft
      return .stored e
  | .deleteOlderThan cutoff => do
      let _ ← access.store.deleteOlderThan cutoff
      return .dropped cutoff

/-- Makes calls one after the other and tells what has happened. Nothing has happened in a
call that fails. -/
def makeAll (access : LogAccess σ) : List LogCall -> Action σ (List LogEvent)
  | [] => pure []
  | call :: rest => do
      let made ← Action.attempt (access.make call)
      let later ← access.makeAll rest
      return made.toOption.toList ++ later

variable {access : LogAccess σ} {s : Session σ} {log : ExecutionLog} {events : List LogEvent}

theorem make_apply (hlawful : access.IsLawful) (hholds : access.Holds s.host log)
    (hreplay : log.IsReplay events) (call : LogCall) :
    exists next, access.Holds (access.make call s).2.host next ∧
      next.IsReplay (events ++ (access.make call s).1.toOption.toList) := by
  cases call with
  | deleteOlderThan cutoff =>
      rcases hholds.deleteOlderThan hlawful cutoff with ⟨hcount, hnext⟩
      rw [make, Action.bind_apply, Action.next_of_ok hcount]
      exact ⟨_, hnext, hreplay.deleteOlderThan cutoff⟩
  | insert draft =>
      rw [make, Action.bind_apply]
      cases hinsert : log.insert draft with
      | error reason =>
          rw [hholds.insert_refused hinsert, Action.next_error]
          refine ⟨log, hholds, ?_⟩
          change log.IsReplay (events ++ [])
          rw [List.append_nil]
          exact hreplay
      | ok stored =>
          rcases stored with ⟨next, e⟩
          rcases hholds.insert hlawful hinsert with ⟨he, hnext⟩
          rw [Action.next_of_ok he]
          exact ⟨next, hnext, hreplay.insert hinsert⟩

theorem makeAll_apply (hlawful : access.IsLawful) (hholds : access.Holds s.host log)
    (hreplay : log.IsReplay events) (calls : List LogCall) :
    exists later next, (access.makeAll calls s).1 = .ok later ∧
      access.Holds (access.makeAll calls s).2.host next ∧ next.IsReplay (events ++ later) := by
  induction calls generalizing s log events with
  | nil => exact ⟨[], log, rfl, hholds, by rw [List.append_nil]; exact hreplay⟩
  | cons call rest ih =>
      rcases make_apply hlawful hholds hreplay call with ⟨middle, hmiddle, hreplay'⟩
      rcases ih hmiddle hreplay' with ⟨later, next, hlater, hnext, hreplay''⟩
      rw [List.append_assoc] at hreplay''
      rw [makeAll, Action.bind_apply, Action.attempt_apply, Action.next_ok, Action.bind_apply,
        Action.next_of_ok hlater]
      exact ⟨_, next, rfl, hnext, hreplay''⟩

/-! ## What a history promises -/

/-- What a host answers whose log has the given history, whatever is asked of it next. -/
structure Keeps (access : LogAccess σ) (s : Session σ) (events : List LogEvent) : Prop where
  /-- Ids grow in the order of insertion, also beyond executions that are gone. -/
  ids_increase : ((LogEvent.executions events).map Execution.id).Pairwise (· < ·)
  ids_fresh : forall draft e, (access.insert draft s).1 = .ok e ->
    forall old, old ∈ LogEvent.executions events -> old.id < e.id
  executions : access.ask ExecutionLog.executions s = (.ok (LogEvent.survivors events), s)
  /-- What was inserted is found as it was, until something drops it. -/
  found : forall before e after, events = before ++ .stored e :: after ->
    access.ask (·.get? e.id) s =
      (.ok (if after.any (LogEvent.drops e) then none else some e), s)
  recorded : forall entry, access.sink entry s =
    ((access.insert (.ofEntry entry) s).1.map fun _ => (),
      (access.insert (.ofEntry entry) s).2)
  refused : forall draft failure, (access.insert draft s).1 = .error failure ->
    (access.insert draft s).2 = s ∧ exists reason, failure = .storage reason
  pruned : forall cutoff, exists log pruned count, access.Holds s.host log ∧
    access.store.countOlderThan cutoff s = (.ok (Number.ofNat count), s) ∧
    (access.store.deleteOlderThan cutoff s).1 = .ok (Number.ofNat count) ∧
    access.Holds (access.store.deleteOlderThan cutoff s).2.host pruned ∧
    log.IsPruned cutoff pruned count

theorem keeps_of_isReplay (hlawful : access.IsLawful) (hholds : access.Holds s.host log)
    (hreplay : log.IsReplay events) : access.Keeps s events := by
  constructor
  case ids_increase => exact hreplay.ids_increase
  case ids_fresh =>
    intro draft e he old hold
    cases hinsert : log.insert draft with
    | error reason =>
        rw [hholds.insert_refused hinsert] at he
        cases he
    | ok stored =>
        rcases stored with ⟨next, e'⟩
        rw [(hholds.insert hlawful hinsert).1] at he
        cases he
        have hstored := (ExecutionLog.insert_ok hreplay.isTable.ids_lt hinsert).1
        rw [(draft.toExecution_yields log.nextId e hstored).1]
        exact hreplay.ids_lt old hold
  case executions =>
    rw [hholds.ask, hreplay.executions_eq]
  case found =>
    intro before e after hsplit
    subst hsplit
    rw [hholds.ask, hreplay.get?_eq]
  case recorded =>
    intro entry
    rw [sink_eq, Action.bind_apply]
    rcases access.insert (.ofEntry entry) s with ⟨result, t⟩
    cases result with
    | ok e => rfl
    | error failure => rfl
  case refused =>
    intro draft failure hfailed
    exact change_failed hfailed
  case pruned =>
    intro cutoff
    rcases hholds.deleteOlderThan hlawful cutoff with ⟨hcount, hnext⟩
    exact ⟨log, _, _, hholds, hholds.countOlderThan cutoff, hcount, hnext,
      hreplay.isPruned cutoff⟩

/-- Whatever calls have been made of a log since it was empty, its host answers as their history
promises. -/
theorem makeAll_keeps (hlawful : access.IsLawful) (hempty : access.Holds s.host .empty)
    (calls : List LogCall) :
    exists events, (access.makeAll calls s).1 = .ok events ∧
      access.Keeps (access.makeAll calls s).2 events := by
  rcases makeAll_apply hlawful hempty ExecutionLog.empty_isReplay calls with
    ⟨events, log, hevents, hholds, hreplay⟩
  exact ⟨events, hevents, keeps_of_isReplay hlawful hholds hreplay⟩

/-- The host is the connection itself. -/
def direct : LogAccess LogConnection :=
  ⟨fun connection => connection, fun connection _ => connection⟩

theorem direct_lawful : direct.IsLawful :=
  fun _ _ => rfl

def sampleDraft (completedAt : Option Number) : ExecutionDraft where
  command := some "data:query"
  options := [("entity", .text "members")]
  user := .system
  exitCode := some 0
  output := some "3"
  elapsedSeconds := 0
  environment := some "staging"
  startedAt := some 1000
  completedAt := completedAt

theorem sample_holds : direct.Holds (LogConnection.fresh true) .empty :=
  ⟨rfl, rfl⟩

/-- An execution, a draft that is refused, a pruning that drops the execution, and another
execution. -/
def sampleCalls : List LogCall :=
  [.insert (sampleDraft (some 1000)), .insert (sampleDraft none), .deleteOlderThan 2000,
    .insert (sampleDraft (some 3000))]

theorem makeAll_keeps_sample :
    direct.IsLawful ∧ direct.Holds (LogConnection.fresh true) .empty ∧
      exists events, (direct.makeAll sampleCalls ⟨.fresh true, []⟩).1 = .ok events ∧
        direct.Keeps (direct.makeAll sampleCalls ⟨.fresh true, []⟩).2 events :=
  ⟨direct_lawful, sample_holds, makeAll_keeps direct_lawful sample_holds sampleCalls⟩

example : ((direct.makeAll sampleCalls ⟨.fresh true, []⟩).1.map fun events =>
      ((LogEvent.executions events).map Execution.id,
        (LogEvent.survivors events).map Execution.id)).toOption = some ([1, 2], [2]) := by
  decide +kernel

end LogAccess

end OperatorConsole
