import OperatorConsole.Console
import OperatorConsole.Proofs.Action.Items
import OperatorConsole.Proofs.Command.Checked
import OperatorConsole.Proofs.Registry.Order
import OperatorConsole.Proofs.Runner.Observed

/-!
# Registration under an enable map

Candidates are registered in order, as far as the enable map lets them in.  A candidate that is
refused leaves the registry as it was, and its refusal is noted as an error, once.  Only a gap
in the list of candidates ends the registration.

A name is let in by its own entry in the map, or by default if it has none.  The map is looked
up as a record, and to the names that every record answers it answers without an entry: what
has such a name is let in even where nothing is by default.
-/

namespace OperatorConsole

open OperatorConsole.Action

def LogEntry.isError (entry : LogEntry) : Bool :=
  entry.level = .error

namespace Registry

/-! ## One candidate -/

/-- What is noted of a candidate that cannot be registered. -/
def refusalNote (described : Value) (failure : Failure) : LogEntry :=
  ⟨.error, "Failed to register command", some (.ofFields
    [("name", Candidate.givenName described),
      ("error", .text (failure.message.toOption.getD ""))])⟩

section Map

variable (enabled : Record) (enabledByDefault : Bool) (host : σ)

/-- The command that a candidate is registered as under an enable map. -/
def admitted? (candidate : Candidate σ) : Option (Command σ) :=
  if letsIn enabled enabledByDefault (Candidate.givenName (candidate.described host)) then
    (candidate.toCommand host).toOption
  else none

/-- What is noted as an error of a candidate under an enable map. -/
def refusal? (candidate : Candidate σ) : Option LogEntry :=
  if letsIn enabled enabledByDefault (Candidate.givenName (candidate.described host)) then
    match candidate.toCommand host with
    | .ok _ => none
    | .error failure => some (refusalNote (candidate.described host) failure)
  else none

end Map

variable (registry : Registry σ) (enabled : Record) (enabledByDefault : Bool)

theorem register_accepted {candidate : Candidate σ} {command : Command σ} {s : Session σ}
    (hcommand : candidate.toCommand s.host = .ok command) :
    exists notes, registry.register candidate s =
        (.ok (registry.insert command, command), { s with journal := s.journal ++ notes }) ∧
      notes.filter LogEntry.isError = [] := by
  unfold register
  rw [bind_apply, get_apply, next_ok, bind_apply, settle_apply, hcommand, next_ok]
  cases registry.contains command.name with
  | false => exact ⟨[_], rfl, rfl⟩
  | true =>
      refine ⟨[⟨.warn, "Replacing registered command",
          some (.ofFields [("name", .text command.name)])⟩,
        ⟨.debug, "Registered command", some (.ofFields [("name", .text command.name),
          ("riskLevel", .text command.descriptor.riskLevel.word)])⟩], ?_, rfl⟩
      exact Prod.ext rfl (congrArg (Session.mk s.host) (List.append_assoc _ _ _))

theorem registerEnabled_apply (candidate : Candidate σ) (s : Session σ) :
    exists notes, registry.registerEnabled candidate enabled enabledByDefault s =
        (.ok (registry.insertAll (admitted? enabled enabledByDefault s.host candidate).toList,
          (admitted? enabled enabledByDefault s.host candidate).toList),
        { s with journal := s.journal ++ notes }) ∧
      notes.filter LogEntry.isError =
        (refusal? enabled enabledByDefault s.host candidate).toList := by
  unfold registerEnabled admitted? refusal?
  rw [bind_apply, get_apply, next_ok]
  cases letsIn enabled enabledByDefault (Candidate.givenName (candidate.described s.host)) with
  | false => exact ⟨[_], rfl, rfl⟩
  | true =>
      simp only [Bool.not_true, Bool.false_eq_true, if_false, if_true]
      rw [bind_apply, attempt_apply, next_ok]
      cases hcommand : candidate.toCommand s.host with
      | ok command =>
          rcases registry.register_accepted hcommand with ⟨notes, hregister, hnotes⟩
          rw [hregister]
          exact ⟨notes, rfl, hnotes⟩
      | error failure =>
          rcases Candidate.toCommand_refused hcommand with ⟨issues, hfailure⟩
          rw [registry.register_refused hcommand, hfailure]
          exact ⟨[_], rfl, rfl⟩

/-! ## All candidates -/

/-- The candidates before the first gap. -/
def offered : List (Option (Candidate σ)) -> List (Candidate σ)
  | some candidate :: rest => candidate :: offered rest
  | _ => []

theorem offered_map_some (candidates : List (Candidate σ)) :
    offered (candidates.map some) = candidates := by
  induction candidates with
  | nil => rfl
  | cons candidate rest ih => rw [List.map_cons, offered, ih]

theorem map_some_offered {candidates : List (Option (Candidate σ))}
    (hgap : candidates.any Option.isNone = false) :
    (offered candidates).map some = candidates := by
  induction candidates with
  | nil => rfl
  | cons candidate? rest ih =>
      cases candidate? with
      | none => cases hgap
      | some candidate => rw [offered, List.map_cons, ih hgap]

theorem registerConfigured_apply (candidates : List (Option (Candidate σ))) (s : Session σ) :
    exists notes, registry.registerConfigured enabled enabledByDefault candidates s =
        (if candidates.any Option.isNone then .error nothing
          else .ok (registry.insertAll ((offered candidates).filterMap
              (admitted? enabled enabledByDefault s.host)),
            (offered candidates).filterMap (admitted? enabled enabledByDefault s.host)),
        { s with journal := s.journal ++ notes }) ∧
      notes.filter LogEntry.isError =
        (offered candidates).filterMap (refusal? enabled enabledByDefault s.host) := by
  induction candidates generalizing registry s with
  | nil => exact ⟨[], by rw [List.append_nil]; rfl, rfl⟩
  | cons candidate? rest ih =>
      cases candidate? with
      | none => exact ⟨[], by rw [List.append_nil]; rfl, rfl⟩
      | some candidate =>
          rcases registry.registerEnabled_apply enabled enabledByDefault candidate s with
            ⟨notes, hfirst, hnotes⟩
          rcases ih (registry.insertAll (admitted? enabled enabledByDefault s.host candidate).toList)
            { s with journal := s.journal ++ notes } with ⟨later, hrest, hlater⟩
          refine ⟨notes ++ later, ?_, ?_⟩
          · rw [← List.append_assoc, registerConfigured, bind_apply, hfirst, next_ok]
            dsimp only
            rw [bind_apply, hrest, List.any_cons, offered, List.filterMap_cons]
            cases rest.any Option.isNone with
            | true => rfl
            | false =>
                cases admitted? enabled enabledByDefault s.host candidate with
                | none => rfl
                | some command => rfl
          · rw [List.filter_append, hnotes, hlater, offered, List.filterMap_cons]
            cases refusal? enabled enabledByDefault s.host candidate with
            | none => rfl
            | some note => rfl

/-! ## Candidates that are in order -/

theorem admitted_of_valid {host : σ} {candidates : List (Candidate σ)}
    {commands : List (Command σ)}
    (hvalid : candidates.mapM (fun candidate => candidate.toCommand host) = .ok commands) :
    candidates.filterMap (admitted? enabled enabledByDefault host) =
      commands.filter fun command => isEnabled enabled enabledByDefault command.name := by
  induction mapM_eq_ok_iff.mp hvalid with
  | nil => rfl
  | @cons candidate command rest others hcommand hrest ih =>
      have hadmitted : admitted? enabled enabledByDefault host candidate =
          if isEnabled enabled enabledByDefault command.name then some command else none := by
        unfold admitted?
        rw [Candidate.givenName_of_toCommand hcommand, hcommand]
        rfl
      rw [List.filterMap_cons, List.filter_cons, hadmitted, ih (mapM_eq_ok_iff.mpr hrest)]
      cases isEnabled enabled enabledByDefault command.name with
      | true => rfl
      | false => rfl

/-- Candidates that are in order are registered one after the other, as far as the enable map
lets them in. -/
theorem registerConfigured_valid {candidates : List (Candidate σ)} {commands : List (Command σ)}
    {s : Session σ}
    (hvalid : candidates.mapM (fun candidate => candidate.toCommand s.host) = .ok commands) :
    (registry.registerConfigured enabled enabledByDefault (candidates.map some) s).1 =
      .ok (registry.insertAll (commands.filter fun command =>
          isEnabled enabled enabledByDefault command.name),
        commands.filter fun command => isEnabled enabled enabledByDefault command.name) := by
  rcases registry.registerConfigured_apply enabled enabledByDefault (candidates.map some) s with
    ⟨notes, houtcome, _⟩
  have hgap : (candidates.map some).any Option.isNone = false := by simp
  rw [houtcome, offered_map_some, hgap, admitted_of_valid enabled enabledByDefault hvalid]
  rfl

/-! ## Names in the enable map -/

/-- An enable map as the record that it is looked up as. -/
def switches (entries : List (String × Bool)) : Record :=
  .ofFields (entries.map fun entry => (entry.1, .bool entry.2))

/-- Whether a name is switched on: by its own entry, or by default if it has none. -/
def isSwitchedOn (entries : List (String × Bool)) (enabledByDefault : Bool) (name : String) :
    Bool :=
  (entries.lookup name).getD enabledByDefault

theorem own?_switches (entries : List (String × Bool)) (name : String) :
    (switches entries).fields.own? name = (entries.lookup name).map Value.bool := by
  induction entries with
  | nil => rfl
  | cons entry rest ih =>
      change Fields.own? ((entry.1, .bool entry.2) :: (switches rest).fields) name = _
      rw [Fields.own?_cons, ih, List.lookup_cons]
      by_cases hname : name = entry.1
      · simp [hname]
      · simp [hname, beq_eq_false_iff_ne.mpr hname]

theorem isEnabled_switches (entries : List (String × Bool)) (enabledByDefault : Bool)
    (name : String) :
    isEnabled (switches entries) enabledByDefault name =
      isSwitchedOn entries (enabledByDefault || (Fields.inherited? name).isSome) name := by
  have hown := own?_switches entries name
  unfold isEnabled isSwitchedOn
  cases hentry : entries.lookup name with
  | some isOn =>
      rw [hentry] at hown
      rw [Record.get_own hown]
      rfl
  | none =>
      rw [hentry] at hown
      rw [show (switches entries).get name = _ from Record.get_inherited hown]
      cases hinherited : Fields.inherited? name with
      | none => simp
      | some v =>
          rcases Fields.inherited?_cases hinherited with rfl | ⟨routine, rfl⟩
          · simp [Value.toBool]
          · simp [Value.toBool]

theorem isSwitchedOn_iff {entries : List (String × Bool)} {enabledByDefault : Bool}
    {name : String} :
    isSwitchedOn entries enabledByDefault name = true ↔
      entries.lookup name = some true ∨ entries.lookup name = none ∧ enabledByDefault = true := by
  unfold isSwitchedOn
  cases entries.lookup name with
  | none => simp
  | some isOn => simp

/-! ## Commands on offer -/

namespace Offered

/-- Its name is the name of something that every record answers. -/
def building : Descriptor :=
  ⟨"constructor", "Build the parts", "Builds what is missing.", "parts", .low, false, []⟩

def candidates : List (Candidate Unit) :=
  [Restricted.candidate Restricted.clearing,
    Restricted.candidate Restricted.purging]

def commands : List (Command Unit) :=
  [Restricted.command Restricted.clearing,
    Restricted.command Restricted.purging]

end Offered

/-! ## What the enable map decides -/

/-- Of commands that are in order, those are registered whose names are switched on, in order.
A name that every record answers, and that has no entry, is on even if none is by default. -/
theorem registerConfigured_switches {candidates : List (Candidate σ)}
    {commands : List (Command σ)} {s : Session σ}
    (hvalid : candidates.mapM (fun candidate => candidate.toCommand s.host) = .ok commands)
    (entries : List (String × Bool)) (enabledByDefault : Bool) :
    exists registered,
      (registry.registerConfigured (switches entries) enabledByDefault
          (candidates.map some) s).1 = .ok (registry.insertAll registered, registered) ∧
        registered = commands.filter (fun command => isSwitchedOn entries
          (enabledByDefault || (Fields.inherited? command.name).isSome) command.name) ∧
        ((forall command, command ∈ commands -> Fields.inherited? command.name = none) ->
          registered = commands.filter fun command =>
            isSwitchedOn entries enabledByDefault command.name) ∧
        (forall command, command ∈ registered -> entries.lookup command.name ≠ some false) := by
  refine ⟨_, registry.registerConfigured_valid (switches entries) enabledByDefault hvalid,
    ?_, ?_, ?_⟩
  · simp only [isEnabled_switches]
  · intro hordinary
    apply List.filter_congr
    intro command hmem
    rw [isEnabled_switches, hordinary command hmem]
    simp
  · intro command hmem hoff
    have hon := (List.mem_filter.mp hmem).2
    rw [isEnabled_switches, isSwitchedOn_iff, hoff] at hon
    simp at hon

/-- Of two commands, the one that has an entry is registered where none is by default. -/
theorem registerConfigured_switches_clear :
    Offered.candidates.mapM (fun candidate => candidate.toCommand ()) = .ok Offered.commands ∧
      (empty.registerConfigured (switches [("cache:clear", true)]) false
          (Offered.candidates.map some) ⟨(), []⟩).1 =
        .ok (⟨[Restricted.command Restricted.clearing]⟩,
          [Restricted.command Restricted.clearing]) := by
  have hvalid : Offered.candidates.mapM (fun candidate => candidate.toCommand
      (⟨(), []⟩ : Session Unit).host) = .ok Offered.commands := rfl
  rcases registerConfigured_switches empty hvalid [("cache:clear", true)] false with
    ⟨registered, houtcome, hregistered, _⟩
  refine ⟨hvalid, ?_⟩
  rw [houtcome, hregistered]
  rfl

/-- The map is empty and nothing is registered by default, yet this command is. -/
theorem unlisted_registered :
    (empty.registerConfigured (switches []) false
        [some (Restricted.candidate Offered.building)] ⟨(), []⟩).1 =
      .ok (⟨[Restricted.command Offered.building]⟩,
        [Restricted.command Offered.building]) ∧
      isSwitchedOn [] false (Restricted.command Offered.building).name = false :=
  ⟨rfl, rfl⟩

/-! ## What stands between candidates -/

def accepted? (s : Session σ) (candidate : Candidate σ) : Option (Command σ) :=
  (registry.register candidate s).1.toOption.map Prod.snd

def refused? (s : Session σ) (candidate : Candidate σ) : Option LogEntry :=
  match (registry.register candidate s).1 with
  | .ok _ => none
  | .error failure => some (refusalNote (candidate.described s.host) failure)

theorem letsIn_empty (given : Value) : letsIn .empty true given = true := by
  cases given with
  | text name => exact (isEnabled_switches [] true name).trans rfl
  | _ => rfl

theorem admitted_empty (s : Session σ) (candidate : Candidate σ) :
    admitted? .empty true s.host candidate = registry.accepted? s candidate := by
  unfold admitted? accepted?
  rw [letsIn_empty, if_pos rfl, (registry.register_apply candidate s).1]
  cases candidate.toCommand s.host with
  | ok command => rfl
  | error failure => rfl

theorem refusal_empty (s : Session σ) (candidate : Candidate σ) :
    refusal? .empty true s.host candidate = registry.refused? s candidate := by
  unfold refusal? refused?
  rw [letsIn_empty, if_pos rfl, (registry.register_apply candidate s).1]
  cases candidate.toCommand s.host with
  | ok command => rfl
  | error failure => rfl

/-- Nothing switched off, the candidates before the first gap are registered or noted, each as
it would be by itself; without a gap this is the outcome, and with one the registration fails. -/
theorem registerConfigured_isolates (candidates : List (Option (Candidate σ))) (s : Session σ) :
    exists notes,
      registry.registerConfigured .empty true candidates s =
          (if candidates.any Option.isNone then .error nothing
            else .ok (registry.insertAll ((offered candidates).filterMap (registry.accepted? s)),
              (offered candidates).filterMap (registry.accepted? s)),
          { s with journal := s.journal ++ notes }) ∧
        notes.filter LogEntry.isError =
          (offered candidates).filterMap (registry.refused? s) ∧
        (candidates.any Option.isNone = false -> (offered candidates).map some = candidates) ∧
        forall candidate,
          (registry.refused? s candidate).isSome = (registry.accepted? s candidate).isNone := by
  rcases registry.registerConfigured_apply .empty true candidates s with
    ⟨notes, houtcome, hnotes⟩
  have hadmitted := funext (registry.admitted_empty s)
  have hrefusal := funext (registry.refusal_empty s)
  rw [hadmitted] at houtcome
  rw [hrefusal] at hnotes
  refine ⟨notes, houtcome, hnotes, map_some_offered, fun candidate => ?_⟩
  unfold refused? accepted?
  cases (registry.register candidate s).1 with
  | ok registered => rfl
  | error failure => rfl

/-- A number is no command, and the command behind it is registered. -/
theorem registerConfigured_isolates_number :
    exists notes,
      empty.registerConfigured .empty true
          [some (.inert (.number 5)), some (Restricted.candidate Restricted.clearing)] ⟨(), []⟩ =
        (.ok (⟨[Restricted.command Restricted.clearing]⟩,
          [Restricted.command Restricted.clearing]), ⟨(), notes⟩) ∧
      (notes.filter LogEntry.isError).length = 1 := by
  rcases registerConfigured_isolates empty
      [some (.inert (.number 5)), some (Restricted.candidate Restricted.clearing)] ⟨(), []⟩ with
    ⟨notes, houtcome, hnotes, _⟩
  refine ⟨notes, houtcome, ?_⟩
  rw [hnotes]
  rfl

/-- A gap keeps the candidate behind it from being registered, which registering by itself
accepts. -/
theorem gap_blocks :
    (empty.registerConfigured .empty true
        [none, some (Restricted.candidate Restricted.clearing)] ⟨(), []⟩) =
      (.error nothing, ⟨(), []⟩) ∧
      (empty.accepted? ⟨(), []⟩ (Restricted.candidate Restricted.clearing)).isSome =
        true :=
  ⟨rfl, rfl⟩

end Registry

end OperatorConsole
