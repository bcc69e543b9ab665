import Mathlib.Data.List.Basic
import OperatorConsole.Proofs.Runner.Observed
import OperatorConsole.Proofs.Value.Fields

/-!
# Undeclared input

What a request carries under keys that the schema of its command does not declare has no
influence on its run.  Two runs are compared by what they ask of the outside: the calls of the
command, with their arguments and outcomes, and the readings of the timer.

## Mirrored actions

Two actions mirror each other if they make the same calls and end in the same way whenever they
are given the same time.  The host may be in any state before each of them, and what a run leaves
in the journal or hands to its sink is not compared.  Responses are the same whenever there are
two; that there is one in both cases may take a sink that does not fail beyond words.
-/

namespace OperatorConsole

open OperatorConsole.Action

namespace RunFact

def reading? : RunFact -> Option (Except Failure Number)
  | .timed outcome => some outcome
  | _ => none

/-- Whether the fact is a call of the command. -/
def isCall : RunFact -> Bool
  | .validated _ _ => true
  | .executed _ _ _ => true
  | _ => false

/-- Whether a sink that failed, if the fact tells of one, can say why. -/
def IsWorded : RunFact -> Prop
  | .handed _ (.error failure) => exists message, failure.message = .ok message
  | _ => True

def readings (facts : List RunFact) : List (Except Failure Number) :=
  facts.filterMap reading?

def calls (facts : List RunFact) : List RunFact :=
  facts.filter isCall

theorem readings_append (facts more : List RunFact) :
    readings (facts ++ more) = readings facts ++ readings more :=
  List.filterMap_append

theorem calls_append (facts more : List RunFact) :
    calls (facts ++ more) = calls facts ++ calls more :=
  List.filter_append _ _

end RunFact

open RunFact

/-! ## Actions that depend on nothing but their arguments -/

def Action.Determined (a : Action σ α) : Prop :=
  exists outcome, forall s, (a s).1 = outcome

/-- What the command says to options and what it makes of them depend on these options and on
the context only. -/
structure Command.IsFunctional (command : Command σ) : Prop where
  validate : forall options, (command.validate options).Determined
  execute : forall options context, (command.execute options context).Determined

/-! ## Mirrored actions -/

/-- The facts that two actions tell are alike, and so are the values that they give.  They fail
alike as well if all is known of the facts that has to be. -/
structure Action.AreMirrored (known : RunFact -> Prop) (told told' : List RunFact)
    (result result' : Except Failure α) : Prop where
  calls_eq : calls told = calls told'
  readings_eq : readings told = readings told'
  value_eq : forall x y, result = .ok x -> result' = .ok y -> x = y
  result_eq : (forall fact, fact ∈ told ++ told' -> known fact) -> result = result'

def Action.Mirrors (known : RunFact -> Prop) (a b : Action (Watched σ RunFact) α) : Prop :=
  forall s t, exists told told',
    (a s).2.host.events = s.host.events ++ told ∧ (b t).2.host.events = t.host.events ++ told' ∧
      forall clock, readings told <+: clock -> readings told' <+: clock ->
        AreMirrored known told told' (a s).1 (b t).1

namespace Action

variable {known : RunFact -> Prop}

theorem AreMirrored.same {told : List RunFact} {result result' : Except Failure α}
    (hresult : result = result') : AreMirrored known told told result result' := by
  subst hresult
  constructor
  case calls_eq => rfl
  case readings_eq => rfl
  case value_eq => exact fun x y hx hy => Except.ok.inj (hx.symm.trans hy)
  case result_eq => exact fun _ => rfl

theorem AreMirrored.follow {told told' : List RunFact} {first first' : Except Failure β}
    {result result' : Except Failure α} (hmirrored : AreMirrored known told told' first first')
    (hvalue : forall x y, result = .ok x -> result' = .ok y -> x = y)
    (hresult : first = first' -> result = result') :
    AreMirrored known told told' result result' := by
  constructor
  case calls_eq => exact hmirrored.calls_eq
  case readings_eq => exact hmirrored.readings_eq
  case value_eq => exact hvalue
  case result_eq => exact fun hall => hresult (hmirrored.result_eq hall)

theorem AreMirrored.append {told told' more more' : List RunFact}
    {result result' : Except Failure α} (hcalls : calls told = calls told')
    (hreadings : readings told = readings told')
    (hmirrored : AreMirrored known more more' result result') :
    AreMirrored known (told ++ more) (told' ++ more') result result' := by
  constructor
  case calls_eq => rw [calls_append, calls_append, hcalls, hmirrored.calls_eq]
  case readings_eq => rw [readings_append, readings_append, hreadings, hmirrored.readings_eq]
  case value_eq => exact hmirrored.value_eq
  case result_eq =>
    intro hall
    apply hmirrored.result_eq
    intro fact hfact
    apply hall fact
    rcases List.mem_append.mp hfact with hmore | hmore'
    · exact List.mem_append_left _ (List.mem_append_right _ hmore)
    · exact List.mem_append_right _ (List.mem_append_right _ hmore')

/-- What is told later is timed by what the first facts, which are alike, left of the clock. -/
theorem AreMirrored.later {told told' more more' : List RunFact} {first first' : Except Failure β}
    {result result' : Except Failure α}
    (hfirst : forall clock, readings told <+: clock -> readings told' <+: clock ->
      AreMirrored (fun _ => True) told told' first first')
    (hnext : first = first' -> forall clock, readings more <+: clock -> readings more' <+: clock ->
      AreMirrored known more more' result result')
    {clock : List (Except Failure Number)} (hclock : readings (told ++ more) <+: clock)
    (hclock' : readings (told' ++ more') <+: clock) :
    AreMirrored known (told ++ more) (told' ++ more') result result' := by
  rw [readings_append] at hclock hclock'
  have hmirrored := hfirst clock ((List.prefix_append _ _).trans hclock)
    ((List.prefix_append _ _).trans hclock')
  rw [← hmirrored.readings_eq] at hclock'
  rcases (List.prefix_append _ _).trans hclock with ⟨rest, hrest⟩
  rw [← hrest] at hclock hclock'
  have hlater := hnext (hmirrored.result_eq fun _ _ => trivial) rest
    ((List.prefix_append_right_inj _).mp hclock) ((List.prefix_append_right_inj _).mp hclock')
  exact hlater.append hmirrored.calls_eq hmirrored.readings_eq

theorem Mirrors.extends_left {a b : Action (Watched σ RunFact) α} (hmirrors : Mirrors known a b) :
    Extends a := by
  intro s
  rcases hmirrors s s with ⟨told, _, hevents, _⟩
  exact ⟨told, hevents⟩

theorem Mirrors.extends_right {a b : Action (Watched σ RunFact) α}
    (hmirrors : Mirrors known a b) : Extends b := by
  intro s
  rcases hmirrors s s with ⟨_, told', _, hevents, _⟩
  exact ⟨told', hevents⟩

theorem Mirrors.settle (result : Except Failure α) :
    Mirrors known (Action.settle result : Action (Watched σ RunFact) α) (Action.settle result) := by
  intro s t
  exact ⟨[], [], (List.append_nil _).symm, (List.append_nil _).symm,
    fun _ _ _ => AreMirrored.same rfl⟩

theorem Mirrors.log (entry : LogEntry) :
    Mirrors known (Action.log entry : Action (Watched σ RunFact) Unit) (Action.log entry) := by
  intro s t
  exact ⟨[], [], (List.append_nil _).symm, (List.append_nil _).symm,
    fun _ _ _ => AreMirrored.same rfl⟩

theorem Mirrors.attempt {a b : Action (Watched σ RunFact) α}
    (hmirrors : Mirrors (fun _ => True) a b) : Mirrors known a.attempt b.attempt := by
  intro s t
  rcases hmirrors s t with ⟨told, told', hevents, hevents', hsame⟩
  refine ⟨told, told', hevents, hevents', fun clock hclock hclock' => ?_⟩
  have hmirrored := hsame clock hclock hclock'
  have hresult : (a s).1 = (b t).1 := hmirrored.result_eq fun _ _ => trivial
  constructor
  case calls_eq => exact hmirrored.calls_eq
  case readings_eq => exact hmirrored.readings_eq
  case value_eq =>
    intro x y hx hy
    rw [← Except.ok.inj hx, ← Except.ok.inj hy, hresult]
  case result_eq => exact fun _ => congrArg Except.ok hresult

theorem extends_next {step : β -> Action (Watched σ RunFact) α}
    (hstep : forall x, Extends (step x))
    (outcome : Except Failure β × Session (Watched σ RunFact)) :
    exists told, (next step outcome).2.host.events = outcome.2.host.events ++ told := by
  rcases outcome with ⟨result, s⟩
  cases result with
  | ok x => exact hstep x s
  | error failure => exact ⟨[], (List.append_nil _).symm⟩

theorem Mirrors.next {step step' : β -> Action (Watched σ RunFact) α}
    (hstep : forall x, Mirrors known (step x) (step' x))
    (outcome outcome' : Except Failure β × Session (Watched σ RunFact)) :
    exists more more',
      (next step outcome).2.host.events = outcome.2.host.events ++ more ∧
      (next step' outcome').2.host.events = outcome'.2.host.events ++ more' ∧
      (outcome.1 = outcome'.1 -> forall clock, readings more <+: clock ->
        readings more' <+: clock ->
          AreMirrored known more more' (next step outcome).1 (next step' outcome').1) := by
  by_cases hresult : outcome.1 = outcome'.1
  · rcases outcome with ⟨result, s⟩
    rcases outcome' with ⟨result', t⟩
    change result = result' at hresult
    subst hresult
    cases result with
    | error failure =>
        exact ⟨[], [], (List.append_nil _).symm, (List.append_nil _).symm,
          fun _ _ _ _ => AreMirrored.same rfl⟩
    | ok x =>
        rcases hstep x s t with ⟨more, more', hmore, hmore', hsame⟩
        exact ⟨more, more', hmore, hmore', fun _ => hsame⟩
  · rcases extends_next (fun x => (hstep x).extends_left) outcome with ⟨more, hmore⟩
    rcases extends_next (fun x => (hstep x).extends_right) outcome' with ⟨more', hmore'⟩
    exact ⟨more, more', hmore, hmore', fun hsame => absurd hsame hresult⟩

/-- Steps are mirrored one after the other as long as the first ones end alike for certain. -/
theorem Mirrors.bind {a b : Action (Watched σ RunFact) β}
    {step step' : β -> Action (Watched σ RunFact) α} (hfirst : Mirrors (fun _ => True) a b)
    (hstep : forall x, Mirrors known (step x) (step' x)) :
    Mirrors known (a >>= step) (b >>= step') := by
  intro s t
  rcases hfirst s t with ⟨told, told', hevents, hevents', hsame⟩
  rcases Mirrors.next hstep (a s) (b t) with ⟨more, more', hmore, hmore', hnext⟩
  rw [bind_apply, bind_apply]
  refine ⟨told ++ more, told' ++ more', ?_, ?_, fun clock => AreMirrored.later hsame hnext⟩
  · rw [hmore, hevents, List.append_assoc]
  · rw [hmore', hevents', List.append_assoc]

theorem Mirrors.andGive {a b : Action (Watched σ RunFact) β} (hmirrors : Mirrors known a b)
    (x : α) : Mirrors known (a >>= fun _ => pure x) (b >>= fun _ => pure x) := by
  have hgiven : forall (c : Action (Watched σ RunFact) β) (s : Session (Watched σ RunFact)),
      (c >>= fun _ => pure x) s = ((c s).1.map fun _ => x, (c s).2) := by
    intro c s
    rw [bind_apply]
    cases c s with
    | mk result t =>
        cases result with
        | ok _ => rfl
        | error _ => rfl
  have hconstant : forall (result : Except Failure β) (y : α),
      result.map (fun _ => x) = .ok y -> y = x := by
    intro result y hy
    cases result with
    | ok _ => exact (Except.ok.inj hy).symm
    | error _ => cases hy
  intro s t
  rcases hmirrors s t with ⟨told, told', hevents, hevents', hsame⟩
  rw [hgiven, hgiven]
  refine ⟨told, told', hevents, hevents', fun clock hclock hclock' => ?_⟩
  apply (hsame clock hclock hclock').follow
  · intro y z hy hz
    exact (hconstant _ y hy).trans (hconstant _ z hz).symm
  · exact fun hresult => congrArg (Except.map fun _ => x) hresult

theorem Mirrors.observe {a : Action σ α} (event : Except Failure α -> RunFact)
    (hdetermined : a.Determined) :
    Mirrors known (Action.observe event a) (Action.observe event a) := by
  rcases hdetermined with ⟨outcome, houtcome⟩
  intro s t
  refine ⟨[event outcome], [event outcome], ?_, ?_, fun _ _ _ => ?_⟩
  · rw [← houtcome s.forget]
    rfl
  · rw [← houtcome t.forget]
    rfl
  · exact AreMirrored.same ((houtcome s.forget).trans (houtcome t.forget).symm)

end Action

/-! ## Options that agree -/

namespace Options

/-- Both values are handed in as records that answer the same to every declared key. -/
def Agree (schema : List OptionSpec) (v w : Value) : Prop :=
  exists r r', Record.ofValue? v = some r ∧ Record.ofValue? w = some r' ∧
    forall o, o ∈ schema -> r.get o.key = r'.get o.key

theorem agree_of_own {schema : List OptionSpec} {fields others : Fields}
    (hsame : forall o, o ∈ schema -> fields.own? o.key = others.own? o.key) :
    Agree schema (.ofFields fields) (.ofFields others) := by
  refine ⟨.ofFields fields, .ofFields others, rfl, rfl, fun o ho => ?_⟩
  cases hown : fields.own? o.key with
  | some v =>
      have hother : (Record.ofFields others).fields.own? o.key = some v :=
        (hsame o ho).symm.trans hown
      rw [Record.get_own hother]
      exact Record.get_own hown
  | none =>
      have hother : others.own? o.key = none := (hsame o ho).symm.trans hown
      rw [Record.get_inherited hown, Record.get_inherited hother]

theorem given_of_answers {v : Value} {r : Record} (hv : Record.ofValue? v = some r)
    (schema : List OptionSpec) : given v schema = .ok r := by
  unfold given
  rw [hv]

theorem applyDefaults_congr {schema : List OptionSpec} {r other : Record}
    (hsame : forall o, o ∈ schema -> r.get o.key = other.get o.key) :
    applyDefaults r schema = applyDefaults other schema := by
  unfold applyDefaults
  refine List.foldl_ext _ _ _ fun result o ho => ?_
  unfold resolved
  rw [hsame o ho]

end Options

/-! ## Mirrored runs -/

namespace Runner

variable {known : RunFact -> Prop} (runner : Runner σ)

theorem timer_mirrors : Mirrors known runner.observed.timer runner.observed.timer := by
  intro s t
  refine ⟨[.timed (runner.timer s.forget).1], [.timed (runner.timer t.forget).1], rfl, rfl,
    fun clock hclock hclock' => ?_⟩
  have hsame : (runner.timer s.forget).1 = (runner.timer t.forget).1 := by
    rcases hclock with ⟨rest, hrest⟩
    rcases hclock' with ⟨rest', hrest'⟩
    exact (List.cons.inj (hrest.trans hrest'.symm)).1
  rw [hsame]
  exact AreMirrored.same hsame

theorem noteSlow_mirrors (name : String) (elapsed : Number) :
    Mirrors known (runner.observed.noteSlow name elapsed)
      (runner.observed.noteSlow name elapsed) := by
  unfold noteSlow
  cases runner.observed.maxExecutionTimeSeconds with
  | none => exact Mirrors.settle _
  | some limit =>
      dsimp only
      split
      · exact Mirrors.log _
      · exact Mirrors.settle _

/-- Whatever the sink is handed, recording an entry fails only beyond words. -/
theorem record_told (entry : AuditEntry) (s : Session (Watched σ RunFact)) :
    exists told, (runner.observed.record entry s).2.host.events = s.host.events ++ told ∧
      calls told = [] ∧ readings told = [] ∧
      ((forall fact, fact ∈ told -> fact.IsWorded) ->
        (runner.observed.record entry s).1 = .ok ()) := by
  have hsink : runner.observed.sink =
      runner.sink.map fun sink entry => observe (.handed entry) (sink entry) := rfl
  unfold record
  rw [hsink]
  cases runner.observed.logExecutions with
  | false => exact ⟨[], (List.append_nil _).symm, rfl, rfl, fun _ => rfl⟩
  | true =>
      cases runner.sink with
      | none => exact ⟨[], (List.append_nil _).symm, rfl, rfl, fun _ => rfl⟩
      | some sink =>
          have houtcome : (observe (.handed entry) (sink entry) s).1 =
              (sink entry s.forget).1 := rfl
          have hevents : (observe (.handed entry) (sink entry) s).2.host.events =
              s.host.events ++ [.handed entry (sink entry s.forget).1] := rfl
          dsimp only [Option.map_some]
          rw [bind_apply, attempt_apply, next_ok, houtcome]
          cases hended : (sink entry s.forget).1 with
          | ok done =>
              rw [hended] at hevents
              exact ⟨[.handed entry (.ok done)], hevents, rfl, rfl, fun _ => rfl⟩
          | error failure =>
              rw [hended] at hevents
              dsimp only [messageOf]
              refine ⟨[.handed entry (.error failure)], ?_, rfl, rfl, fun hworded => ?_⟩
              · cases failure.message with
                | ok message => exact hevents
                | error failure => exact hevents
              · rcases hworded _ List.mem_cons_self with ⟨message, hmessage⟩
                rw [hmessage]
                rfl

theorem record_mirrors (entry entry' : AuditEntry) :
    Mirrors IsWorded (runner.observed.record entry) (runner.observed.record entry') := by
  intro s t
  rcases runner.record_told entry s with ⟨told, hevents, hcalls, hreadings, hresult⟩
  rcases runner.record_told entry' t with ⟨told', hevents', hcalls', hreadings', hresult'⟩
  refine ⟨told, told', hevents, hevents', fun _ _ _ => ?_⟩
  constructor
  case calls_eq => exact hcalls.trans hcalls'.symm
  case readings_eq => exact hreadings.trans hreadings'.symm
  case value_eq => exact fun _ _ _ _ => rfl
  case result_eq =>
    intro hall
    rw [hresult fun fact hfact => hall fact (List.mem_append_left _ hfact),
      hresult' fun fact hfact => hall fact (List.mem_append_right _ hfact)]

theorem finish_mirrors (commandName : String) (options options' : Value) (user : Operator)
    (startedAt : Number) (ending : Ending) :
    Mirrors IsWorded
      (runner.observed.finish ⟨commandName, options, user, startedAt⟩ ending)
      (runner.observed.finish ⟨commandName, options', user, startedAt⟩ ending) := by
  apply runner.timer_mirrors.bind
  intro completedAt
  apply (Mirrors.settle _).bind
  intro footer
  apply (runner.noteSlow_mirrors _ _).bind
  intro _
  exact (runner.record_mirrors _ _).andGive _

theorem refuse_mirrors (name : String) (failure : CommandFailure) (startedAt : Number) :
    Mirrors known (runner.observed.refuse name failure startedAt)
      (runner.observed.refuse name failure startedAt) := by
  apply runner.timer_mirrors.bind
  intro completedAt
  apply (Mirrors.log _).bind
  intro _
  apply (Mirrors.settle _).bind
  intro footer
  exact Mirrors.settle _

section Command

variable {command : Command σ} (hcommand : command.IsFunctional)

include hcommand

theorem perform_mirrors (options : Value) (context : CommandContext) :
    Mirrors known (perform command.observed options context)
      (perform command.observed options context) := by
  apply (Mirrors.observe _ (hcommand.validate options)).bind
  intro _
  apply (Mirrors.observe _ (hcommand.execute options context)).bind
  intro answer
  cases answer with
  | some result => exact Mirrors.settle _
  | none => exact Mirrors.settle _

theorem carryOut_mirrors (attempt : Attempt) :
    Mirrors IsWorded (runner.observed.carryOut command.observed attempt)
      (runner.observed.carryOut command.observed attempt) := by
  apply (Mirrors.settle _).bind
  intro header
  apply (perform_mirrors hcommand _ _).attempt.bind
  intro outcome
  cases outcome with
  | ok result => exact runner.finish_mirrors _ _ _ _ _ _
  | error failure =>
      apply (Mirrors.settle _).bind
      intro message
      apply (Mirrors.log _).bind
      intro _
      exact runner.finish_mirrors _ _ _ _ _ _

theorem attend_mirrors {request request' : RunRequest}
    (hconfirmed : request.isConfirmed = request'.isConfirmed)
    (hoptions : Options.Agree command.descriptor.options request.options request'.options)
    (user : Operator) (startedAt : Number) :
    Mirrors IsWorded (runner.observed.attend command.observed request user startedAt)
      (runner.observed.attend command.observed request' user startedAt) := by
  rcases runner.observed.decision_cases command.observed request with
    hineligible | ⟨heligible, hrequired, hunconfirmed⟩ | ⟨heligible, hcleared⟩
  · rw [attend_ineligible _ _ user startedAt hineligible,
      attend_ineligible _ _ user startedAt hineligible]
    apply (Mirrors.log _).bind
    intro _
    exact runner.finish_mirrors _ _ _ _ _ _
  · rw [attend_unconfirmed _ _ user startedAt heligible hrequired hunconfirmed,
      attend_unconfirmed _ _ user startedAt heligible hrequired (hconfirmed ▸ hunconfirmed)]
    exact runner.finish_mirrors _ _ _ _ _ _
  · rcases hoptions with ⟨r, r', hr, hr', hsame⟩
    have hdefaults := Options.applyDefaults_congr hsame
    have hschema : command.observed.descriptor.options = command.descriptor.options := rfl
    rw [attend_cleared _ _ user startedAt heligible hcleared,
      attend_cleared _ _ user startedAt heligible (hconfirmed ▸ hcleared),
      Options.given_of_answers hr, Options.given_of_answers hr', settle_ok_bind, settle_ok_bind,
      hschema, hdefaults]
    exact runner.carryOut_mirrors hcommand _

end Command

theorem run_mirrors {request request' : RunRequest} {command : Command σ}
    (hcommand : command.IsFunctional)
    (hregistered : runner.registry.get? request.commandName = some command)
    (hname : request.commandName = request'.commandName)
    (hconfirmed : request.isConfirmed = request'.isConfirmed)
    (hoptions : Options.Agree command.descriptor.options request.options request'.options)
    (user : Operator) :
    Mirrors IsWorded (runner.observed.run request user) (runner.observed.run request' user) := by
  rw [run_eq, run_eq, ← hname, runner.get?_observed, hregistered]
  apply runner.timer_mirrors.bind
  intro startedAt
  split
  · exact runner.refuse_mirrors _ _ _
  · exact runner.attend_mirrors hcommand hconfirmed hoptions user startedAt

end Runner

/-! ## A command with one option

It counts its executions in the state of the host, which nothing that it answers depends on. -/

namespace Counting

def days : OptionSpec :=
  ⟨"days", "Days", .text, false, none, false, none, none, [], none, none⟩

def command : Command Nat where
  descriptor := ⟨"log:trim", "Trim the log", "Drops old entries.", "log", .low, false, [days]⟩
  validate := fun _ => pure ()
  execute := fun options _ => do
    modify fun s => { s with host := s.host + 1 }
    return some (.success s!"{options.fields.length} options")
  supply := fun _ => pure []

def runner : Runner Nat where
  registry := ⟨[command]⟩
  gate := ⟨[]⟩
  environment := "test"
  enabled := true
  logExecutions := true
  sink := none
  maxExecutionTimeSeconds := none
  timer := pure 0

def request (options : Fields) : RunRequest :=
  ⟨"log:trim", .ofFields options, .absent⟩

theorem command_functional : command.IsFunctional := by
  constructor
  case validate => exact fun options => ⟨.ok (), fun _ => rfl⟩
  case execute => exact fun options context => ⟨.ok _, fun _ => rfl⟩

def firstRequest : RunRequest :=
  request [("days", .number 7), ("note", .text "later")]

def secondRequest : RunRequest :=
  request [("force", .bool true), ("days", .number 7)]

end Counting

end OperatorConsole
