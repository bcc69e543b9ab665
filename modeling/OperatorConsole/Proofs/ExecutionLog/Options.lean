import OperatorConsole.Proofs.Check.Stable
import OperatorConsole.Proofs.ExecutionLog.Kept
import OperatorConsole.Proofs.Json.Printing
import OperatorConsole.Proofs.Json.Reading

/-!
# Options of executions

An entry's options go into the log as the text of a document, and whoever reads the execution
reads that text.  What was recorded comes back.  A text that got into the log in another way is
read for options only if it is a document of a record of scalars, and for none otherwise.
-/

namespace OperatorConsole

/-- What a document holds without parts: null, a truth value, a number or a text. -/
def Value.IsScalar (v : Value) : Prop :=
  exists s : Scalar, v = s.toValue

/-! ## What documents hold -/

theorem Decimal.toNumber_not_nan (d : Decimal) : d.toNumber.isNaN = false := by
  unfold toNumber
  dsimp only
  split
  · rfl
  split
  · rfl
  split
  · rfl
  · exact Number.round_not_nan _ _ _

namespace Json

theorem Writes.not_nan {text : List Char} {v : Value} (hwrites : Writes text v) :
    v ≠ .number .nan := by
  cases hwrites with
  | @number _ d _ =>
      intro hnan
      have hvalue := d.toNumber_not_nan
      rw [Value.number.inj hnan] at hvalue
      cases hvalue
  | _ => exact nofun

theorem WritesBetween.value {text : List Char} {v : Value} :
    WritesBetween text v -> exists inner, Writes inner v
  | .between _ hvalue _ => ⟨_, hvalue⟩

theorem WritesMembers.value {text : List Char} {members : List (String × Value)} :
    WritesMembers text members -> forall member, member ∈ members ->
      exists inner, Writes inner member.2
  | .last (.member _ _ _ hvalue), member, hmember => by
      rw [List.mem_singleton.mp hmember]
      exact hvalue.value
  | .more (.member _ _ _ hvalue) hrest, member, hmember => by
      rcases List.mem_cons.mp hmember with hfirst | hlater
      · rw [hfirst]
        exact hvalue.value
      · exact hrest.value member hlater

theorem Writes.fields_not_nan {text : List Char} {v : Value} (hwrites : Writes text v) :
    forall field, field ∈ v.fields -> field.2 ≠ .number .nan := by
  cases hwrites with
  | record hmembers =>
      intro field hfield
      rcases hmembers.value field (Fields.mem_ofList hfield) with ⟨inner, hvalue⟩
      exact hvalue.not_nan
  | _ => exact List.forall_mem_nil _

theorem Writes.record_eq {text : List Char} {v : Value} (hwrites : Writes text v) {r : Record}
    (hrecord : Check.record? v = some r) : v = .ofFields r.fields := by
  cases hwrites with
  | emptyRecord _ =>
      cases hrecord
      rfl
  | record _ =>
      cases hrecord
      rfl
  | _ => cases hrecord

end Json

/-! ## Reading options -/

namespace Execution

def WritesOptions (optionsText : Option String) (fields : Fields) : Prop :=
  exists document, optionsText = some document ∧
    Json.WritesBetween document.toList (.ofFields fields) ∧
    forall field, field ∈ fields -> field.2.IsScalar

theorem readOptions_of_writes {optionsText : Option String} {fields : Fields}
    (hwrites : WritesOptions optionsText fields) :
    readOptions optionsText = fields.filter fun field => field.1 != Fields.baseKey := by
  rcases hwrites with ⟨document, rfl, hdocument, hscalars⟩
  have hparse : Json.parse? document = some (.ofFields fields) :=
    Json.parse?_eq_some_iff.mpr hdocument
  have hpass : forall field, field ∈ fields -> exists s, Check.scalar field.2 = .ok s := by
    intro field hfield
    rcases hdocument.value with ⟨inner, hvalue⟩
    rcases hscalars field hfield with ⟨s, hs⟩
    exact ⟨s, Check.scalar_eq_ok.mpr ⟨hs, hvalue.fields_not_nan field hfield⟩⟩
  rcases Check.entries_pass_iff.mpr hpass with ⟨read, hentries⟩
  have hresult : (Check.map? Check.scalar (.ofFields fields)).result? = some read :=
    Check.result?_eq_some.mpr hentries
  unfold readOptions
  rw [Option.bind_some, hparse]
  dsimp only
  rw [hresult]
  exact Check.entries_written (fun v s => Check.scalar_passed) hentries

theorem readOptions_other {optionsText : Option String}
    (hother : forall fields, ¬WritesOptions optionsText fields) :
    readOptions optionsText = [] := by
  unfold readOptions
  split
  case h_2 => rfl
  case h_1 v hv =>
  split
  case h_2 => rfl
  case h_1 read hread =>
    rcases Option.bind_eq_some_iff.mp hv with ⟨document, htext, hparse⟩
    rcases Check.record_eq_ok.mp (Check.result?_eq_some.mp hread) with ⟨r, hrecord, hentries⟩
    have hdocument := Json.parse?_eq_some_iff.mp hparse
    have hfields : v = .ofFields r.fields := by
      rcases hdocument.value with ⟨inner, hvalue⟩
      exact hvalue.record_eq hrecord
    have hscalars : forall field, field ∈ r.fields -> field.2.IsScalar := by
      intro field hfield
      rcases Check.entries_pass_iff.mp ⟨read, hentries⟩ field hfield with ⟨s, hs⟩
      exact ⟨s, Check.scalar_passed hs⟩
    rw [hfields] at hdocument
    exact (hother r.fields ⟨document, htext, hdocument, hscalars⟩).elim

end Execution

/-! ## Recording options -/

theorem Value.IsFlat.unsigned_isScalar {v : Value} (hflat : v.IsFlat)
    (hpresent : v.isAbsent = false) : v.unsigned.IsScalar := by
  cases v with
  | absent => cases hpresent
  | null => exact ⟨.null, rfl⟩
  | bool b => exact ⟨.bool b, rfl⟩
  | number x => exact ⟨.number x.unsigned, rfl⟩
  | text s => exact ⟨.text s, rfl⟩
  | _ => cases hflat

section Recorded

variable {fields : Fields} (hflat : fields.AreFlat)

include hflat

theorem Fields.AreFlat.haveWritable : Json.haveWritable fields = true := by
  induction fields with
  | nil => rfl
  | cons field rest ih =>
      rcases field with ⟨key, v⟩
      have hvalue : Json.isWritable v = true := by
        have hv := hflat.values (key, v) List.mem_cons_self
        cases v with
        | exact n => cases hv
        | list items => cases hv
        | record fields base => cases hv
        | _ => rfl
      rw [Json.haveWritable, hvalue, ih hflat.tail]
      rfl

theorem Fields.AreFlat.writesOptions :
    Execution.WritesOptions (Json.compact? (.ofFields fields)) fields.recorded := by
  rcases Json.compact?_flat hflat with ⟨document, hdocument, hwrites⟩
  refine ⟨document, hdocument, hwrites.between, ?_⟩
  intro field hfield
  rcases List.mem_map.mp hfield with ⟨old, hold, rfl⟩
  rcases List.mem_filter.mp hold with ⟨hmem, hpresent⟩
  exact (hflat.values old hmem).unsigned_isScalar (by simpa using hpresent)

theorem Fields.AreFlat.readOptions_compact
    (hbase : forall field, field ∈ fields -> field.1 ≠ Fields.baseKey) :
    Execution.readOptions (Json.compact? (.ofFields fields)) = fields.recorded := by
  rw [Execution.readOptions_of_writes hflat.writesOptions]
  apply List.filter_eq_self.mpr
  intro field hfield
  rcases List.mem_map.mp hfield with ⟨old, hold, rfl⟩
  simpa using hbase old (List.mem_filter.mp hold).1

end Recorded

namespace ExecutionDraft

theorem kept_of_not_nan {x : Number} (hx : x.isNaN = false) : exists y, kept x = some y := by
  unfold kept
  rw [hx]
  exact ⟨_, rfl⟩

theorem ofEntry_stored {entry : AuditEntry} (hflat : entry.options.fields.AreFlat)
    (hstarted : entry.startedAt.isNaN = false) (hcompleted : entry.completedAt.isNaN = false)
    (id : Nat) : exists e, (ofEntry entry).toExecution id = .ok e := by
  rcases kept_of_not_nan hstarted with ⟨startedAt, hstartedAt⟩
  rcases kept_of_not_nan hcompleted with ⟨createdAt, hcreatedAt⟩
  exact ⟨_, toExecution_eq_ok.mpr ⟨hflat.haveWritable, _, _, startedAt, createdAt, rfl, rfl,
    hstartedAt, hcreatedAt, rfl⟩⟩

theorem toExecution_options {draft : ExecutionDraft} {id : Nat} {e : Execution}
    (hstored : draft.toExecution id = .ok e) :
    e.options = Execution.readOptions (Json.compact? (.ofFields draft.options)) := by
  rcases toExecution_eq_ok.mp hstored with ⟨_, _, _, _, _, _, _, _, _, rfl⟩
  rfl

end ExecutionDraft

/-! ## Through a host -/

namespace LogAccess

/-- What becomes of the options in a log to which a host has access. -/
structure KeepsOptions (access : LogAccess σ) (s : Session σ) (log : ExecutionLog) : Prop where
  /-- Options stand in the way of no entry. -/
  taken : forall entry fields, entry.options = .ofFields fields -> fields.AreFlat ->
    entry.startedAt.isNaN = false -> entry.completedAt.isNaN = false ->
    exists e, (access.insert (.ofEntry entry) s).1 = .ok e
  /-- What is taken in is found by its id, with the options that were recorded. -/
  survive : forall entry fields e, entry.options = .ofFields fields -> fields.AreFlat ->
    (forall field, field ∈ fields -> field.1 ≠ Fields.baseKey) ->
    (access.insert (.ofEntry entry) s).1 = .ok e ->
    access.ask (·.get? e.id) (access.insert (.ofEntry entry) s).2 =
      (.ok (some e), (access.insert (.ofEntry entry) s).2) ∧ e.options = fields.recorded
  /-- Every execution of the log is found by its id, whatever text it has for its options. -/
  found : forall e, e ∈ log.executions -> access.ask (·.get? e.id) s = (.ok (some e), s)
  written : forall e fields, e ∈ log.executions ->
    Execution.WritesOptions e.optionsText fields ->
    e.options = fields.filter fun field => field.1 != Fields.baseKey
  unwritten : forall e, e ∈ log.executions ->
    (forall fields, ¬Execution.WritesOptions e.optionsText fields) -> e.options = []

section Host

variable {access : LogAccess σ} {s : Session σ} {log : ExecutionLog}

theorem Holds.ask_inserted (hlawful : access.IsLawful) (hholds : access.Holds s.host log)
    (htable : log.IsTable) {draft : ExecutionDraft} {e : Execution}
    (he : (access.insert draft s).1 = .ok e) :
    (exists id, draft.toExecution id = .ok e) ∧
      access.ask (·.get? e.id) (access.insert draft s).2 =
        (.ok (some e), (access.insert draft s).2) := by
  cases hinsert : log.insert draft with
  | error reason =>
      rw [hholds.insert_refused hinsert] at he
      cases he
  | ok stored =>
      rcases stored with ⟨next, e'⟩
      rcases hholds.insert hlawful hinsert with ⟨hresult, hnext⟩
      rw [hresult] at he
      cases he
      rcases ExecutionLog.insert_ok htable.ids_lt hinsert with ⟨hstored, hexecutions⟩
      have hmem : e ∈ next.executions := by
        rw [hexecutions]
        exact List.mem_append_right _ List.mem_cons_self
      refine ⟨⟨log.nextId, hstored⟩, ?_⟩
      rw [hnext.ask, (htable.insert hinsert).get?_of_mem hmem]

theorem insert_taken (hlawful : access.IsLawful) (hholds : access.Holds s.host log)
    (htable : log.IsTable) {draft : ExecutionDraft} {e : Execution}
    (hstored : draft.toExecution log.nextId = .ok e) :
    (access.insert draft s).1 = .ok e := by
  have hinsert : log.insert draft = .ok (⟨log.executions ++ [e], log.nextId + 1⟩, e) := by
    rw [ExecutionLog.insert_eq htable.ids_lt, hstored]
    rfl
  exact (hholds.insert hlawful hinsert).1

/-- Recorded options survive in whatever log a host has open, beside whatever texts that log
holds. -/
theorem options_survive (hlawful : access.IsLawful) (hholds : access.Holds s.host log)
    (htable : log.IsTable) : access.KeepsOptions s log := by
  constructor
  case taken =>
    intro entry fields hoptions hflat hstarted hcompleted
    have hfields : entry.options.fields.AreFlat := by
      rw [hoptions]
      exact hflat
    rcases ExecutionDraft.ofEntry_stored hfields hstarted hcompleted log.nextId with ⟨e, hstored⟩
    exact ⟨e, insert_taken hlawful hholds htable hstored⟩
  case survive =>
    intro entry fields e hoptions hflat hbase he
    rcases hholds.ask_inserted hlawful htable he with ⟨⟨id, hstored⟩, hfound⟩
    have hdraft : (ExecutionDraft.ofEntry entry).options = fields :=
      congrArg Value.fields hoptions
    refine ⟨hfound, ?_⟩
    rw [ExecutionDraft.toExecution_options hstored, hdraft, hflat.readOptions_compact hbase]
  case found =>
    intro e he
    rw [hholds.ask, htable.get?_of_mem he]
  case written => exact fun e fields _ => Execution.readOptions_of_writes
  case unwritten => exact fun e _ => Execution.readOptions_other

end Host

/-- Options with a text that needs escapes, a zero with a sign and an absent value. -/
def sampleEntry : AuditEntry where
  command := "data:query"
  options := .ofFields [("limit", .number 25), ("offset", .number (.zero true)),
    ("entity", .text "say \"members\"\n"), ("page", .absent), ("dryRun", .bool true),
    ("note", .null)]
  user := .system
  exitCode := 0
  output := "3"
  elapsedSeconds := 0
  environment := "staging"
  startedAt := 1000
  completedAt := 2000

def storedLog : ExecutionLog :=
  ⟨[⟨1, "data:query", some "\x7b\x7d", none, none, none, none, none, none, "staging", none, none,
      500, some 1000, 1000⟩], 2⟩

def foreignLog : ExecutionLog :=
  storedLog.setOptionsText 1 (some "rows: 3")

def foreignSession : Session LogConnection :=
  ⟨(LogConnection.fresh true).withLog foreignLog, []⟩

theorem sampleEntry_flat : sampleEntry.options.fields.AreFlat := by
  constructor
  case ordered =>
    unfold Fields.IsOrdered
    decide +kernel
  case keys => decide +kernel
  case values => decide +kernel

theorem options_survive_sample :
    direct.IsLawful ∧ direct.Holds foreignSession.host foreignLog ∧ foreignLog.IsTable ∧
      (exists e, (direct.insert (.ofEntry sampleEntry) foreignSession).1 = .ok e ∧
        e.options = [("limit", .number 25), ("offset", .number (.zero false)),
          ("entity", .text "say \"members\"\n"), ("dryRun", .bool true), ("note", .null)]) ∧
      forall e, e ∈ foreignLog.executions -> e.options = [] := by
  have hholds : direct.Holds foreignSession.host foreignLog := ⟨rfl, rfl⟩
  have hstored : storedLog.IsTable := by
    constructor
    case ids_unique => decide
    case ids_lt => decide
    case timed =>
      unfold ExecutionLog.IsTimed
      decide +kernel
  have htable : foreignLog.IsTable := hstored.setOptionsText 1 (some "rows: 3")
  have hkeeps := options_survive direct_lawful hholds htable
  refine ⟨direct_lawful, hholds, htable, ?_, ?_⟩
  · rcases hkeeps.taken sampleEntry _ rfl sampleEntry_flat (by decide +kernel)
      (by decide +kernel) with ⟨e, he⟩
    refine ⟨e, he, ?_⟩
    rw [(hkeeps.survive sampleEntry _ e rfl sampleEntry_flat (by decide +kernel) he).2]
    decide +kernel
  · intro e he
    have hparse : Json.parse? "rows: 3" = none := by decide +kernel
    apply hkeeps.unwritten e he
    rintro fields ⟨document, htext, hdocument, _⟩
    rw [List.mem_singleton.mp he] at htext
    cases htext
    rw [Json.parse?_eq_some_iff.mpr hdocument] at hparse
    cases hparse

end LogAccess

end OperatorConsole
