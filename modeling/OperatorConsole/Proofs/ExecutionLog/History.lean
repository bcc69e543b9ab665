import OperatorConsole.ExecutionLog.Connection
import OperatorConsole.Proofs.Action.Contract
import OperatorConsole.Proofs.Number.Order

/-!
# History of an execution log

What has happened to a log is a list of events: executions that were stored, and times up to
which executions were dropped.  The log holds the executions that were stored and that no later
event drops, in the order of their insertion.

## Ids

The ids that were given out grow along the history.  An execution that is gone keeps its id,
so no other execution ever answers to it.
-/

namespace OperatorConsole

inductive LogEvent where
  | stored (e : Execution)
  | dropped (cutoff : Number)

namespace LogEvent

def execution? : LogEvent -> Option Execution
  | .stored e => some e
  | .dropped _ => none

/-- Whether the event drops an execution that was stored before it. -/
def drops (e : Execution) : LogEvent -> Bool
  | .stored _ => false
  | .dropped cutoff => e.completedAt.any fun time => Number.lt time cutoff

/-- The executions that were stored, whether or not they are still there. -/
def executions (events : List LogEvent) : List Execution :=
  events.filterMap execution?

def survivors : List LogEvent -> List Execution
  | [] => []
  | .stored e :: later => if later.any (drops e) then survivors later else e :: survivors later
  | .dropped _ :: later => survivors later

theorem executions_append (events later : List LogEvent) :
    executions (events ++ later) = executions events ++ executions later :=
  List.filterMap_append

theorem survivors_sublist (events : List LogEvent) :
    (survivors events).Sublist (executions events) := by
  induction events with
  | nil => exact List.Sublist.slnil
  | cons event later ih =>
      cases event with
      | dropped cutoff => exact ih
      | stored e =>
          rw [survivors]
          split
          · exact ih.cons e
          · exact ih.cons_cons e

theorem survivors_append (events later : List LogEvent) :
    survivors (events ++ later) =
      (survivors events).filter (fun e => !later.any (drops e)) ++ survivors later := by
  induction events with
  | nil => rfl
  | cons event rest ih =>
      cases event with
      | dropped cutoff => exact ih
      | stored e =>
          rw [List.cons_append, survivors, survivors, List.any_append, ih]
          cases hrest : rest.any (drops e) with
          | true => simp
          | false =>
              cases hlater : later.any (drops e) with
              | true => simp [hlater]
              | false => simp [hlater]

end LogEvent

/-! ## Executions as they come in -/

namespace ExecutionDraft

theorem kept_not_nan {x y : Number} (hkept : kept x = some y) : y.isNaN = false := by
  cases hnan : x.isNaN with
  | true =>
      rw [kept, hnan, if_pos rfl] at hkept
      cases hkept
  | false =>
      rw [kept, hnan, if_neg Bool.false_ne_true] at hkept
      rw [← Option.some.inj hkept]
      cases x.equals 0 with
      | true =>
          rw [if_pos rfl]
          exact Number.ofNat_not_nan 0
      | false => exact hnan

theorem demand_eq_ok {column : String} {x? : Option α} {x : α} :
    demand column x? = .ok x ↔ x? = some x := by
  cases x? with
  | none => exact iff_of_false nofun nofun
  | some y => simp [demand]

theorem toExecution_eq_ok {draft : ExecutionDraft} {id : Nat} {e : Execution} :
    draft.toExecution id = .ok e ↔
      Json.isWritable (.ofFields draft.options) = true ∧
      exists command environment startedAt createdAt, draft.command = some command ∧
        draft.environment = some environment ∧ draft.startedAt.bind kept = some startedAt ∧
        draft.completedAt.bind kept = some createdAt ∧
        e = ⟨id, command, Json.compact? (.ofFields draft.options), draft.user.id, draft.user.name,
          draft.user.email, draft.exitCode.bind kept, draft.output,
          kept (roundedSeconds draft.elapsedSeconds), environment, draft.user.ipAddress,
          draft.user.userAgent, startedAt, some createdAt, createdAt⟩ := by
  unfold toExecution
  cases Json.isWritable (.ofFields draft.options) with
  | false =>
      refine iff_of_false ?_ fun hwritable => Bool.false_ne_true hwritable.1
      intro hstored
      cases hstored
  | true =>
      constructor
      · intro hstored
        rcases bind_eq_ok.mp hstored with ⟨command, hcommand, hstored⟩
        rcases bind_eq_ok.mp hstored with ⟨environment, henvironment, hstored⟩
        rcases bind_eq_ok.mp hstored with ⟨startedAt, hstarted, hstored⟩
        rcases bind_eq_ok.mp hstored with ⟨createdAt, hcreated, hstored⟩
        cases hstored
        exact ⟨rfl, command, environment, startedAt, createdAt, demand_eq_ok.mp hcommand,
          demand_eq_ok.mp henvironment, demand_eq_ok.mp hstarted, demand_eq_ok.mp hcreated, rfl⟩
      · rintro ⟨_, command, environment, startedAt, createdAt, hcommand, henvironment, hstarted,
          hcreated, rfl⟩
        rw [hcommand, henvironment, hstarted, hcreated]
        rfl

theorem toExecution_yields (draft : ExecutionDraft) (id : Nat) :
    Yields (fun e => e.id = id ∧ e.completedAt = some e.createdAt ∧ e.createdAt.isNaN = false)
      (draft.toExecution id) := by
  intro e hstored
  rcases toExecution_eq_ok.mp hstored with ⟨_, command, environment, startedAt, createdAt, _, _, _,
    hcreated, rfl⟩
  rcases Option.bind_eq_some_iff.mp hcreated with ⟨time, _, hkept⟩
  exact ⟨rfl, rfl, kept_not_nan hkept⟩

end ExecutionDraft

namespace ExecutionLog

/-- What is read back under a fresh id is what was put in. -/
theorem insert_eq {log : ExecutionLog} (hids : forall e, e ∈ log.executions -> e.id < log.nextId)
    (draft : ExecutionDraft) :
    log.insert draft = (draft.toExecution log.nextId).map fun e =>
      (⟨log.executions ++ [e], log.nextId + 1⟩, e) := by
  unfold insert
  cases hstored : draft.toExecution log.nextId with
  | error failure => rfl
  | ok e =>
      have hother : log.executions.find? (·.id == log.nextId) = none := by
        rw [List.find?_eq_none]
        intro other hmem
        simpa using Nat.ne_of_lt (hids other hmem)
      have hread : get? ⟨log.executions ++ [e], log.nextId + 1⟩ log.nextId = some e := by
        unfold get?
        rw [List.find?_append, hother, Option.none_or]
        exact List.find?_cons_of_pos (by simp [(draft.toExecution_yields _ e hstored).1])
      dsimp only [bind, Except.bind]
      rw [hread]
      rfl

theorem insert_ok {log next : ExecutionLog} {draft : ExecutionDraft} {e : Execution}
    (hids : forall e, e ∈ log.executions -> e.id < log.nextId)
    (hinsert : log.insert draft = .ok (next, e)) :
    draft.toExecution log.nextId = .ok e ∧
      next = ⟨log.executions ++ [e], log.nextId + 1⟩ := by
  rw [insert_eq hids] at hinsert
  cases hstored : draft.toExecution log.nextId with
  | error failure =>
      rw [hstored] at hinsert
      cases hinsert
  | ok stored =>
      rw [hstored] at hinsert
      cases hinsert
      exact ⟨rfl, rfl⟩

/-! ## Tables -/

def IsTimed (log : ExecutionLog) : Prop :=
  forall e, e ∈ log.executions -> e.createdAt.isNaN = false

/-- What the database sees to, whoever writes to the table: an id belongs to one execution, is
not given out again, and every execution has a time. -/
structure IsTable (log : ExecutionLog) : Prop where
  ids_unique : (log.executions.map Execution.id).Nodup
  ids_lt : forall e, e ∈ log.executions -> e.id < log.nextId
  timed : log.IsTimed

theorem IsTable.insert {log next : ExecutionLog} {draft : ExecutionDraft} {e : Execution}
    (htable : log.IsTable) (hinsert : log.insert draft = .ok (next, e)) : next.IsTable := by
  rcases insert_ok htable.ids_lt hinsert with ⟨hstored, hnext⟩
  rcases draft.toExecution_yields log.nextId e hstored with ⟨hid, _, htime⟩
  subst hnext
  constructor
  case ids_unique =>
    rw [List.map_append, List.nodup_append]
    refine ⟨htable.ids_unique, List.pairwise_singleton _ _, ?_⟩
    intro old hold new hnew
    rcases List.mem_map.mp hold with ⟨other, hother, rfl⟩
    rw [List.mem_singleton.mp hnew, hid]
    exact Nat.ne_of_lt (htable.ids_lt other hother)
  case ids_lt =>
    intro other hother
    rcases List.mem_append.mp hother with hold | hnew
    · exact Nat.lt_succ_of_lt (htable.ids_lt other hold)
    · rw [List.mem_singleton.mp hnew, hid]
      exact Nat.lt_succ_self _
  case timed =>
    intro other hother
    rcases List.mem_append.mp hother with hold | hnew
    · exact htable.timed other hold
    · rw [List.mem_singleton.mp hnew]
      exact htime

theorem IsTable.deleteOlderThan {log : ExecutionLog} (htable : log.IsTable) (cutoff : Number) :
    (log.deleteOlderThan cutoff).1.IsTable := by
  have hsublist : (log.deleteOlderThan cutoff).1.executions.Sublist log.executions :=
    List.filter_sublist
  constructor
  case ids_unique => exact htable.ids_unique.sublist (hsublist.map Execution.id)
  case ids_lt => exact fun e he => htable.ids_lt e (hsublist.subset he)
  case timed => exact fun e he => htable.timed e (hsublist.subset he)

theorem IsTable.setOptionsText {log : ExecutionLog} (htable : log.IsTable) (id : Nat)
    (optionsText : Option String) : (log.setOptionsText id optionsText).IsTable := by
  have hkept : forall e : Execution,
      (if e.id = id then { e with optionsText := optionsText } else e).id = e.id ∧
        (if e.id = id then { e with optionsText := optionsText } else e).createdAt =
          e.createdAt := by
    intro e
    split
    · exact ⟨rfl, rfl⟩
    · exact ⟨rfl, rfl⟩
  constructor
  case ids_unique =>
    have hids : (log.setOptionsText id optionsText).executions.map Execution.id =
        log.executions.map Execution.id := by
      rw [ExecutionLog.setOptionsText, List.map_map]
      exact List.map_congr_left fun e _ => (hkept e).1
    rw [hids]
    exact htable.ids_unique
  case ids_lt =>
    intro e he
    rcases List.mem_map.mp he with ⟨old, hold, rfl⟩
    rw [(hkept old).1]
    exact htable.ids_lt old hold
  case timed =>
    intro e he
    rcases List.mem_map.mp he with ⟨old, hold, rfl⟩
    rw [(hkept old).2]
    exact htable.timed old hold

theorem IsTable.get?_of_mem {log : ExecutionLog} (htable : log.IsTable) {e : Execution}
    (he : e ∈ log.executions) : log.get? e.id = some e := by
  have hids := htable.ids_unique
  unfold get?
  generalize log.executions = executions at he hids
  induction executions with
  | nil => cases he
  | cons first rest ih =>
      rw [List.map_cons, List.nodup_cons] at hids
      rcases List.mem_cons.mp he with hfirst | hrest
      · rw [hfirst]
        exact List.find?_cons_of_pos (by simp)
      · have hne : first.id ≠ e.id := by
          intro heq
          exact hids.1 (heq ▸ List.mem_map_of_mem hrest)
        rw [List.find?_cons_of_neg (by simpa using hne)]
        exact ih hrest hids.2

/-! ## Replaying a history -/

/-- The log holds what the events have left. -/
structure IsReplay (log : ExecutionLog) (events : List LogEvent) : Prop where
  executions_eq : log.executions = LogEvent.survivors events
  ids_increase : ((LogEvent.executions events).map Execution.id).Pairwise (· < ·)
  ids_lt : forall e, e ∈ LogEvent.executions events -> e.id < log.nextId
  times : forall e, e ∈ LogEvent.executions events ->
    e.completedAt = some e.createdAt ∧ e.createdAt.isNaN = false

theorem IsReplay.isTable {log : ExecutionLog} {events : List LogEvent}
    (hreplay : log.IsReplay events) : log.IsTable := by
  have hsublist : log.executions.Sublist (LogEvent.executions events) := by
    rw [hreplay.executions_eq]
    exact LogEvent.survivors_sublist events
  constructor
  case ids_unique =>
    exact (hreplay.ids_increase.imp Nat.ne_of_lt).sublist (hsublist.map Execution.id)
  case ids_lt =>
    intro e he
    exact hreplay.ids_lt e (hsublist.subset he)
  case timed =>
    intro e he
    exact (hreplay.times e (hsublist.subset he)).2

theorem empty_isReplay : empty.IsReplay [] := by
  constructor
  case executions_eq => rfl
  case ids_increase => exact List.Pairwise.nil
  case ids_lt =>
    intro e he
    cases he
  case times =>
    intro e he
    cases he

theorem IsReplay.insert {log next : ExecutionLog} {events : List LogEvent}
    {draft : ExecutionDraft} {e : Execution} (hreplay : log.IsReplay events)
    (hinsert : log.insert draft = .ok (next, e)) : next.IsReplay (events ++ [.stored e]) := by
  rcases insert_ok hreplay.isTable.ids_lt hinsert with ⟨hstored, hnext⟩
  rcases draft.toExecution_yields log.nextId e hstored with ⟨hid, htime⟩
  subst hnext
  have hexecutions : LogEvent.executions (events ++ [.stored e]) =
      LogEvent.executions events ++ [e] := LogEvent.executions_append _ _
  constructor
  case executions_eq =>
    have hkept : (LogEvent.survivors events).filter
        (fun old => !([LogEvent.stored e].any (LogEvent.drops old))) =
          LogEvent.survivors events := by
      apply List.filter_eq_self.mpr
      intro old _
      rfl
    rw [LogEvent.survivors_append, hkept, hreplay.executions_eq]
    rfl
  case ids_increase =>
    rw [hexecutions, List.map_append, List.pairwise_append]
    refine ⟨hreplay.ids_increase, List.pairwise_singleton _ _, ?_⟩
    intro old hold new hnew
    rcases List.mem_map.mp hold with ⟨other, hother, rfl⟩
    rw [List.mem_singleton.mp hnew, hid]
    exact hreplay.ids_lt other hother
  case ids_lt =>
    intro other hother
    rw [hexecutions] at hother
    rcases List.mem_append.mp hother with hold | hnew
    · exact Nat.lt_succ_of_lt (hreplay.ids_lt other hold)
    · rw [List.mem_singleton.mp hnew, hid]
      exact Nat.lt_succ_self _
  case times =>
    intro other hother
    rw [hexecutions] at hother
    rcases List.mem_append.mp hother with hold | hnew
    · exact hreplay.times other hold
    · rw [List.mem_singleton.mp hnew]
      exact htime

theorem IsReplay.deleteOlderThan {log : ExecutionLog} {events : List LogEvent}
    (hreplay : log.IsReplay events) (cutoff : Number) :
    (log.deleteOlderThan cutoff).1.IsReplay (events ++ [.dropped cutoff]) := by
  have hexecutions : LogEvent.executions (events ++ [.dropped cutoff]) =
      LogEvent.executions events := by
    rw [LogEvent.executions_append]
    exact List.append_nil _
  constructor
  case executions_eq =>
    have hdrops : forall e, e ∈ LogEvent.survivors events ->
        (!isOlderThan cutoff e) = !([LogEvent.dropped cutoff].any (LogEvent.drops e)) := by
      intro e he
      have htime := (hreplay.times e ((LogEvent.survivors_sublist events).subset he)).1
      simp [isOlderThan, LogEvent.drops, htime]
    rw [LogEvent.survivors_append, ExecutionLog.deleteOlderThan, hreplay.executions_eq,
      List.filter_congr hdrops]
    exact (List.append_nil _).symm
  case ids_increase =>
    rw [hexecutions]
    exact hreplay.ids_increase
  case ids_lt =>
    rw [hexecutions]
    exact hreplay.ids_lt
  case times =>
    rw [hexecutions]
    exact hreplay.times

/-! ## Answers of a log with a history -/

/-- An execution that was stored is found by its id until an event drops it, and from then on
nothing is found. -/
theorem IsReplay.get?_eq {log : ExecutionLog} {before after : List LogEvent} {e : Execution}
    (hreplay : log.IsReplay (before ++ .stored e :: after)) :
    log.get? e.id = if after.any (LogEvent.drops e) then none else some e := by
  have hids := hreplay.ids_increase
  have hexecutions : LogEvent.executions (before ++ .stored e :: after) =
      LogEvent.executions before ++ e :: LogEvent.executions after :=
    LogEvent.executions_append _ _
  rw [hexecutions, List.map_append, List.map_cons, List.pairwise_append,
    List.pairwise_cons] at hids
  rcases hids with ⟨_, ⟨hafter, _⟩, hbefore⟩
  have hearlier : forall other, other ∈ LogEvent.survivors before -> other.id ≠ e.id := by
    intro other hother
    have hmem := List.mem_map_of_mem (f := Execution.id)
      ((LogEvent.survivors_sublist before).subset hother)
    exact Nat.ne_of_lt (hbefore _ hmem e.id List.mem_cons_self)
  have hlater : forall other, other ∈ LogEvent.survivors after -> other.id ≠ e.id := by
    intro other hother
    have hmem := List.mem_map_of_mem (f := Execution.id)
      ((LogEvent.survivors_sublist after).subset hother)
    exact Nat.ne_of_gt (hafter _ hmem)
  have hnone : (LogEvent.survivors after).find? (·.id == e.id) = none := by
    rw [List.find?_eq_none]
    intro other hother
    simpa using hlater other hother
  have hskip : ((LogEvent.survivors before).filter fun other =>
      !(LogEvent.stored e :: after).any (LogEvent.drops other)).find? (·.id == e.id) = none := by
    rw [List.find?_eq_none]
    intro other hother
    simpa using hearlier other (List.mem_filter.mp hother).1
  rw [ExecutionLog.get?, hreplay.executions_eq, LogEvent.survivors_append, List.find?_append,
    hskip, Option.none_or, LogEvent.survivors]
  split
  · exact hnone
  · exact List.find?_cons_of_pos (by simp)

/-! ## Dropping old executions -/

theorem countOlderThan_deleteOlderThan (log : ExecutionLog) {earlier cutoff : Number}
    (hearlier : Number.le earlier cutoff = true) :
    (log.deleteOlderThan cutoff).1.countOlderThan earlier = 0 := by
  unfold countOlderThan
  apply List.countP_eq_zero.mpr
  intro e he hold
  have hkept := (List.mem_filter.mp he).2
  have hdropped : isOlderThan cutoff e = true := Number.lt_of_lt_of_le hold hearlier
  rw [hdropped] at hkept
  cases hkept

structure IsPruned (log : ExecutionLog) (cutoff : Number) (pruned : ExecutionLog)
    (count : Nat) : Prop where
  count_eq : count = log.countOlderThan cutoff
  count_lowered : pruned.count + count = log.count
  untouched : forall e, e ∈ log.executions -> Number.le cutoff e.createdAt = true ->
    e ∈ pruned.executions ∧ pruned.get? e.id = log.get? e.id
  none_older : forall earlier, Number.le earlier cutoff = true ->
    pruned.countOlderThan earlier = 0

theorem IsReplay.isPruned {log : ExecutionLog} {events : List LogEvent}
    (hreplay : log.IsReplay events) (cutoff : Number) :
    log.IsPruned cutoff (log.deleteOlderThan cutoff).1 (log.deleteOlderThan cutoff).2 := by
  constructor
  case count_eq => rfl
  case count_lowered =>
    have hsplit := List.length_eq_countP_add_countP (isOlderThan cutoff) (l := log.executions)
    simp only [Bool.not_eq_true, ← Bool.not_eq_true', Bool.decide_eq_true] at hsplit
    rw [List.countP_eq_length_filter (p := fun e => !isOlderThan cutoff e), Nat.add_comm]
      at hsplit
    exact hsplit.symm
  case untouched =>
    intro e he hnew
    have hkept : e ∈ (log.deleteOlderThan cutoff).1.executions := by
      apply List.mem_filter.mpr
      refine ⟨he, ?_⟩
      rw [isOlderThan, Number.not_lt_of_le hnew]
      rfl
    refine ⟨hkept, ?_⟩
    rw [hreplay.isTable.get?_of_mem he, (hreplay.isTable.deleteOlderThan cutoff).get?_of_mem hkept]
  case none_older =>
    intro earlier hearlier
    exact log.countOlderThan_deleteOlderThan hearlier

end ExecutionLog

end OperatorConsole
