import OperatorConsole.ExecutionLog.Schema

/-!
# Interrupted openings

The statements of an opening are not taken back if the opening stops among them.  However
often that has happened, a database is under way: its tables and indexes came in the order of
the statements, and at most the current version is recorded.  From there one opening that is
not interrupted sets it up, and no opening touches what the log holds.

## Statements in their place

A statement may follow on a database if what it needs is there.  It is then carried out, and
the database stays under way.  An opening issues only statements that may follow.
-/

namespace OperatorConsole

namespace SchemaStatement

/-- Whether a database carries the statement out instead of failing on it. -/
def Succeeds (d : LogDatabase) : SchemaStatement -> Prop
  | .findVersions => True
  | .readVersion => d.versions.isSome = true
  | .createExecutions => True
  | .createIndex _ => d.log.isSome = true
  | .createVersions => True
  | .clearVersions => d.versions.isSome = true
  | .insertVersion version => exists versions, d.versions = some versions ∧ version ∉ versions

/-- Whether the statement has its place after those that made the database. -/
def MayFollow (d : LogDatabase) : SchemaStatement -> Prop
  | .findVersions => True
  | .readVersion => d.versions.isSome = true
  | .createExecutions => True
  | .createIndex name => d.log.isSome = true ∧ name ∈ LogDatabase.indexNames
  | .createVersions =>
      d.log.isSome = true ∧ forall name, name ∈ LogDatabase.indexNames -> name ∈ d.indexes
  | .clearVersions => d.versions.isSome = true
  | .insertVersion version => version = LogDatabase.currentVersion ∧ d.versions = some []

theorem MayFollow.succeeds {d : LogDatabase} {statement : SchemaStatement}
    (hfollows : MayFollow d statement) : Succeeds d statement := by
  cases statement with
  | findVersions => exact True.intro
  | readVersion => exact hfollows
  | createExecutions => exact True.intro
  | createIndex name => exact hfollows.1
  | createVersions => exact True.intro
  | clearVersions => exact hfollows
  | insertVersion version => exact ⟨[], hfollows.2, List.not_mem_nil⟩

@[simp] theorem apply_findVersions (d : LogDatabase) : apply d .findVersions = d := rfl

@[simp] theorem apply_readVersion (d : LogDatabase) : apply d .readVersion = d := rfl

/-! ## Creating an index -/

theorem createIndex_log (d : LogDatabase) (name : String) :
    (apply d (.createIndex name)).log = d.log := by
  rw [apply]
  split
  · rfl
  · rfl

theorem createIndex_versions (d : LogDatabase) (name : String) :
    (apply d (.createIndex name)).versions = d.versions := by
  rw [apply]
  split
  · rfl
  · rfl

theorem mem_createIndex {d : LogDatabase} {name other : String} :
    other ∈ (apply d (.createIndex name)).indexes ↔ other ∈ d.indexes ∨ other = name := by
  rw [apply]
  split
  · next hthere =>
    constructor
    · exact Or.inl
    · rintro (hold | rfl)
      · exact hold
      · exact List.contains_iff_mem.mp hthere
  · rw [List.mem_append, List.mem_singleton]

/-- No statement touches a log that is there. -/
theorem log_apply {d : LogDatabase} {log : ExecutionLog} (hlog : d.log = some log)
    (statement : SchemaStatement) : (apply d statement).log = some log := by
  cases statement with
  | createExecutions =>
      change some (d.log.getD .empty) = some log
      rw [hlog]
      rfl
  | createIndex name =>
      rw [createIndex_log]
      exact hlog
  | _ => exact hlog

end SchemaStatement

inductive DatabaseEvent where
  /-- An opening that stops after so many of its statements. -/
  | opening (count : Nat)
  /-- Somebody who has the database open changes what the log holds. -/
  | change (step : ExecutionLog -> ExecutionLog)

namespace LogDatabase

open SchemaStatement

/-! ## Databases under way -/

/-- How far the openings of a database may have come, some of them interrupted. -/
structure IsUnderWay (d : LogDatabase) : Prop where
  indexes_known : forall name, name ∈ d.indexes -> name ∈ indexNames
  log_before_indexes : d.indexes ≠ [] -> d.log.isSome = true
  indexes_before_versions : d.versions.isSome = true ->
    d.log.isSome = true ∧ forall name, name ∈ indexNames -> name ∈ d.indexes
  versions_current : forall versions, d.versions = some versions ->
    versions = [] ∨ versions = [currentVersion]

theorem empty_isUnderWay : empty.IsUnderWay := by
  constructor
  case indexes_known =>
    intro name hname
    cases hname
  case log_before_indexes =>
    intro hindexes
    exact absurd rfl hindexes
  case indexes_before_versions =>
    intro hversions
    cases hversions
  case versions_current =>
    intro versions hversions
    cases hversions

theorem IsUnderWay.createExecutions {d : LogDatabase} (hway : d.IsUnderWay) :
    (SchemaStatement.apply d .createExecutions).IsUnderWay where
  indexes_known := hway.indexes_known
  log_before_indexes := fun _ => rfl
  indexes_before_versions := fun hversions => ⟨rfl, (hway.indexes_before_versions hversions).2⟩
  versions_current := hway.versions_current

theorem IsUnderWay.createIndex {d : LogDatabase} (hway : d.IsUnderWay) {name : String}
    (hlog : d.log.isSome = true) (hname : name ∈ indexNames) :
    (SchemaStatement.apply d (.createIndex name)).IsUnderWay := by
  constructor
  case indexes_known =>
    intro other hother
    rcases mem_createIndex.mp hother with hold | rfl
    · exact hway.indexes_known other hold
    · exact hname
  case log_before_indexes =>
    intro _
    rw [createIndex_log]
    exact hlog
  case indexes_before_versions =>
    intro hversions
    rw [createIndex_versions] at hversions
    rw [createIndex_log]
    refine ⟨hlog, ?_⟩
    intro other hother
    exact mem_createIndex.mpr (Or.inl ((hway.indexes_before_versions hversions).2 other hother))
  case versions_current =>
    intro versions hversions
    rw [createIndex_versions] at hversions
    exact hway.versions_current versions hversions

theorem IsUnderWay.withVersions {d : LogDatabase} (hway : d.IsUnderWay)
    {versions : Option (List Int)}
    (hbefore : d.log.isSome = true ∧ forall name, name ∈ indexNames -> name ∈ d.indexes)
    (hcurrent : forall vs, versions = some vs -> vs = [] ∨ vs = [currentVersion]) :
    IsUnderWay { d with versions := versions } where
  indexes_known := hway.indexes_known
  log_before_indexes := hway.log_before_indexes
  indexes_before_versions := fun _ => hbefore
  versions_current := hcurrent

theorem IsUnderWay.apply {d : LogDatabase} (hway : d.IsUnderWay) {statement : SchemaStatement}
    (hfollows : MayFollow d statement) : (statement.apply d).IsUnderWay := by
  cases statement with
  | findVersions => exact hway
  | readVersion => exact hway
  | createExecutions => exact hway.createExecutions
  | createIndex name => exact hway.createIndex hfollows.1 hfollows.2
  | createVersions =>
      apply hway.withVersions hfollows
      intro versions hversions
      cases hthere : d.versions with
      | none =>
          rw [hthere] at hversions
          cases hversions
          exact Or.inl rfl
      | some old =>
          rw [hthere] at hversions
          cases hversions
          exact hway.versions_current old hthere
  | clearVersions =>
      apply hway.withVersions (hway.indexes_before_versions hfollows)
      intro versions hversions
      rcases Option.map_eq_some_iff.mp hversions with ⟨_, _, hempty⟩
      exact Or.inl hempty.symm
  | insertVersion version =>
      rcases hfollows with ⟨rfl, hempty⟩
      have hthere : d.versions.isSome = true := by rw [hempty]; rfl
      apply hway.withVersions (hway.indexes_before_versions hthere)
      intro versions hversions
      rw [hempty] at hversions
      cases hversions
      exact Or.inr rfl

/-! ## Statements in order -/

def InOrder (d : LogDatabase) : List SchemaStatement -> Prop
  | [] => True
  | statement :: rest => MayFollow d statement ∧ InOrder (statement.apply d) rest

theorem run_cons (d : LogDatabase) (statement : SchemaStatement)
    (later : List SchemaStatement) :
    d.run (statement :: later) = (statement.apply d).run later :=
  rfl

theorem run_append (d : LogDatabase) (statements later : List SchemaStatement) :
    d.run (statements ++ later) = (d.run statements).run later :=
  List.foldl_append

theorem log_run {d : LogDatabase} {log : ExecutionLog} (hlog : d.log = some log)
    (statements : List SchemaStatement) : (d.run statements).log = some log := by
  induction statements generalizing d with
  | nil => exact hlog
  | cons statement rest ih => exact ih (log_apply hlog statement)

/-- Statements in order may stop anywhere. -/
theorem InOrder.isUnderWay {d : LogDatabase} {statements : List SchemaStatement}
    (horder : d.InOrder statements) (hway : d.IsUnderWay) (count : Nat) :
    (d.run (statements.take count)).IsUnderWay := by
  induction statements generalizing d count with
  | nil =>
      rw [List.take_nil]
      exact hway
  | cons statement rest ih =>
      cases count with
      | zero => exact hway
      | succ count => exact ih horder.2 (hway.apply horder.1) count

theorem InOrder.succeeds {d : LogDatabase} {before after : List SchemaStatement}
    {statement : SchemaStatement} (horder : d.InOrder (before ++ statement :: after)) :
    Succeeds (d.run before) statement := by
  induction before generalizing d with
  | nil => exact horder.1.succeeds
  | cons first rest ih => exact ih horder.2

theorem inOrder_append {d : LogDatabase} {statements later : List SchemaStatement} :
    d.InOrder (statements ++ later) ↔ d.InOrder statements ∧ (d.run statements).InOrder later := by
  induction statements generalizing d with
  | nil => exact (and_iff_right True.intro).symm
  | cons statement rest ih =>
      rw [List.cons_append, InOrder, InOrder, ih, and_assoc]
      rfl

/-! ## Creating the tables -/

/-- A database in which both tables and all indexes are there. -/
structure HasTables (d : LogDatabase) (log : ExecutionLog) (versions : List Int) : Prop where
  log_eq : d.log = some log
  indexes : forall name, name ∈ indexNames -> name ∈ d.indexes
  versions_eq : d.versions = some versions

theorem run_indexes (d : LogDatabase) (names : List String) :
    (d.run (names.map .createIndex)).log = d.log ∧
      (d.run (names.map .createIndex)).versions = d.versions ∧
      forall name, name ∈ (d.run (names.map .createIndex)).indexes ↔
        name ∈ d.indexes ∨ name ∈ names := by
  induction names generalizing d with
  | nil => exact ⟨rfl, rfl, fun name => by simp [run]⟩
  | cons first rest ih =>
      rcases ih (SchemaStatement.apply d (.createIndex first)) with ⟨hlog, hversions, hindexes⟩
      refine ⟨hlog.trans (createIndex_log d first),
        hversions.trans (createIndex_versions d first), ?_⟩
      intro name
      change name ∈ ((SchemaStatement.apply d (.createIndex first)).run
        (rest.map .createIndex)).indexes ↔ _
      rw [hindexes, mem_createIndex, List.mem_cons, or_assoc]

theorem inOrder_indexes {d : LogDatabase} {names : List String} (hlog : d.log.isSome = true)
    (hnames : forall name, name ∈ names -> name ∈ indexNames) :
    d.InOrder (names.map .createIndex) := by
  induction names generalizing d with
  | nil => exact True.intro
  | cons first rest ih =>
      refine ⟨⟨hlog, hnames first List.mem_cons_self⟩, ih ?_ ?_⟩
      · rw [createIndex_log]
        exact hlog
      · intro name hname
        exact hnames name (List.mem_cons_of_mem first hname)

theorem run_creation (d : LogDatabase) :
    (d.run creation).HasTables (d.log.getD .empty) (d.versions.getD []) := by
  rcases run_indexes (SchemaStatement.apply d .createExecutions) indexNames with
    ⟨hlog, hversions, hindexes⟩
  have hrun : d.run creation = SchemaStatement.apply
      ((SchemaStatement.apply d .createExecutions).run (indexNames.map .createIndex))
      .createVersions := by
    rw [creation, run_append]
    rfl
  constructor
  case log_eq =>
    rw [hrun]
    exact hlog
  case indexes =>
    intro name hname
    rw [hrun]
    exact (hindexes name).mpr (Or.inr hname)
  case versions_eq =>
    rw [hrun]
    exact congrArg (fun versions => some (versions.getD [])) hversions

theorem inOrder_creation (d : LogDatabase) : d.InOrder creation := by
  rcases run_indexes (SchemaStatement.apply d .createExecutions) indexNames with
    ⟨hlog, _, hindexes⟩
  rw [creation, inOrder_append]
  refine ⟨⟨True.intro, inOrder_indexes rfl fun name hname => hname⟩, ⟨?_, ?_⟩, True.intro⟩
  · change ((SchemaStatement.apply d .createExecutions).run
      (indexNames.map .createIndex)).log.isSome = true
    rw [hlog]
    rfl
  · intro name hname
    exact (hindexes name).mpr (Or.inr hname)

/-! ## Recording the version -/

theorem HasTables.insertVersion {d : LogDatabase} {log : ExecutionLog}
    (htables : d.HasTables log []) :
    d.InOrder [.insertVersion currentVersion] ∧
      (d.run [.insertVersion currentVersion]).HasTables log [currentVersion] := by
  refine ⟨⟨⟨rfl, htables.versions_eq⟩, True.intro⟩, htables.log_eq, htables.indexes, ?_⟩
  change d.versions.map _ = _
  rw [htables.versions_eq]
  rfl

theorem HasTables.clearVersions {d : LogDatabase} {log : ExecutionLog} {versions : List Int}
    (htables : d.HasTables log versions) :
    MayFollow d .clearVersions ∧
      (SchemaStatement.apply d .clearVersions).HasTables log [] := by
  refine ⟨?_, htables.log_eq, htables.indexes, ?_⟩
  · change d.versions.isSome = true
    rw [htables.versions_eq]
    rfl
  · change d.versions.map _ = _
    rw [htables.versions_eq]
    rfl

theorem migration_zero (d : LogDatabase) :
    d.InOrder (migration 0) ∧
      (d.run (migration 0)).HasTables (d.log.getD .empty) [currentVersion] := by
  have hmigration : migration 0 =
      creation ++ .clearVersions :: [.insertVersion currentVersion] := rfl
  rcases (run_creation d).clearVersions with ⟨hclear, hcleared⟩
  rcases hcleared.insertVersion with ⟨hinsert, hcurrent⟩
  rw [hmigration, inOrder_append, run_append]
  exact ⟨⟨inOrder_creation d, hclear, hinsert⟩, hcurrent⟩

/-- An opening issues its statements in order, and it ends with all that belongs to the current
version. -/
theorem IsUnderWay.setup {d : LogDatabase} (hway : d.IsUnderWay) :
    d.InOrder d.setup ∧ d.opened.HasTables (d.log.getD .empty) [currentVersion] := by
  unfold opened
  cases hversions : d.versions with
  | none =>
      have hsetup : d.setup =
          .findVersions :: (creation ++ [.insertVersion currentVersion]) := by
        rw [LogDatabase.setup, hversions]
      have htables := run_creation d
      rw [hversions] at htables
      rcases htables.insertVersion with ⟨hinsert, hcurrent⟩
      rw [hsetup, InOrder, run_cons, apply_findVersions, inOrder_append, run_append]
      exact ⟨⟨True.intro, inOrder_creation d, hinsert⟩, hcurrent⟩
  | some versions =>
      have hread : MayFollow d .readVersion := by
        change d.versions.isSome = true
        rw [hversions]
        rfl
      rcases hway.versions_current versions hversions with rfl | rfl
      · have hsetup : d.setup = .findVersions :: .readVersion :: migration 0 := by
          rw [LogDatabase.setup, hversions]
        rcases migration_zero d with ⟨horder, htables⟩
        rw [hsetup, InOrder, InOrder, run_cons, run_cons, apply_findVersions, apply_readVersion]
        exact ⟨⟨True.intro, hread, horder⟩, htables⟩
      · have hsetup : d.setup = [.findVersions, .readVersion] := by
          rw [LogDatabase.setup, hversions]
          rfl
        rcases hway.indexes_before_versions hread with ⟨hlog, hindexes⟩
        rcases Option.isSome_iff_exists.mp hlog with ⟨log, hlog⟩
        rw [hsetup, InOrder, InOrder, run_cons, run_cons, apply_findVersions, apply_readVersion,
          hlog]
        exact ⟨⟨True.intro, hread, True.intro⟩, hlog, hindexes, hversions⟩

/-! ## Any number of openings -/

def after (d : LogDatabase) : DatabaseEvent -> LogDatabase
  | .opening count => d.run (d.setup.take count)
  | .change step => { d with log := d.log.map step }

def replay (events : List DatabaseEvent) : LogDatabase :=
  events.foldl after empty

theorem IsUnderWay.after {d : LogDatabase} (hway : d.IsUnderWay) (event : DatabaseEvent) :
    (d.after event).IsUnderWay := by
  cases event with
  | opening count => exact hway.setup.1.isUnderWay hway count
  | change step =>
      have hlog : (d.after (.change step)).log.isSome = d.log.isSome := Option.isSome_map
      constructor
      case indexes_known => exact hway.indexes_known
      case log_before_indexes =>
        rw [hlog]
        exact hway.log_before_indexes
      case indexes_before_versions =>
        rw [hlog]
        exact hway.indexes_before_versions
      case versions_current => exact hway.versions_current

theorem replay_isUnderWay (events : List DatabaseEvent) : (replay events).IsUnderWay := by
  have hrun : forall d : LogDatabase, d.IsUnderWay ->
      (events.foldl LogDatabase.after d).IsUnderWay := by
    induction events with
    | nil =>
        intro d hway
        exact hway
    | cons event rest ih =>
        intro d hway
        exact ih _ (hway.after event)
  exact hrun empty empty_isUnderWay

structure Recovers (d : LogDatabase) : Prop where
  succeeds : forall before statement after, d.setup = before ++ statement :: after ->
    Succeeds (d.run before) statement
  opened : d.opened.HasTables (d.log.getD .empty) [currentVersion]
  log_kept : forall log, d.log = some log -> forall count,
    (d.run (d.setup.take count)).log = some log

/-- However often and wherever openings have stopped since the database was empty, the next one
sets it up and loses nothing of the log. A database of the current version or a newer one is
only read. -/
theorem openings_recover :
    (forall events, (replay events).Recovers) ∧
      forall (d : LogDatabase) version, d.versions = some [version] ->
        currentVersion ≤ version ->
          d.setup = [.findVersions, .readVersion] ∧ d.opened = d := by
  constructor
  · intro events
    rcases (replay_isUnderWay events).setup with ⟨horder, htables⟩
    constructor
    case succeeds =>
      intro before statement after hsplit
      rw [hsplit] at horder
      exact horder.succeeds
    case opened => exact htables
    case log_kept =>
      intro log hlog count
      exact log_run hlog _
  · intro d version hversions hnewer
    have hsetup : d.setup = [.findVersions, .readVersion] := by
      rw [LogDatabase.setup, hversions]
      simp only [Int.not_lt.mpr hnewer, if_false]
    exact ⟨hsetup, by rw [LogDatabase.opened, hsetup]; rfl⟩

/-- One opening stops between the indexes, the next once the versions are cleared; a database
of a later version is left alone. -/
theorem openings_recover_later :
    (replay [.opening 3, .opening 8]).Recovers ∧
      ((⟨some .empty, indexNames, some [3]⟩ : LogDatabase).versions = some [3] ∧
        currentVersion ≤ 3) ∧
      (⟨some .empty, indexNames, some [3]⟩ : LogDatabase).setup =
        [.findVersions, .readVersion] :=
  ⟨openings_recover.1 _, ⟨rfl, by decide⟩, (openings_recover.2 _ 3 rfl (by decide)).1⟩

end LogDatabase

end OperatorConsole
