import OperatorConsole.Command.Registry
import OperatorConsole.Proofs.Action.Running

/-!
# Calls of a registry

A registry is used call after call.  What it comes to depends on the candidates alone: it is
the registry of the commands that have been registered since the last reset.

## The host

Candidates are described by the host program, whose state may change between two calls.
Registering does not change it.
-/

namespace OperatorConsole

namespace Registry

inductive Call (σ : Type) where
  | register (candidate : Candidate σ)
  | registerMany (candidates : List (Candidate σ))
  | reset
  /-- The host program does something of its own. -/
  | elsewhere (change : σ -> σ)

/-- The registry after a call. One that fails leaves it as far as it came. -/
def call (registry : Registry σ) : Call σ -> Action σ (Registry σ)
  | .register candidate => do
      match ← Action.attempt (registry.register candidate) with
      | .ok (registry, _) => return registry
      | .error _ => return registry
  | .registerMany candidates => do
      let (registry, _) ← registry.registerMany candidates
      return registry
  | .reset => return registry.reset
  | .elsewhere change => do
      modify fun s => { s with host := change s.host }
      return registry

def callAll (registry : Registry σ) (calls : List (Call σ)) : Action σ (Registry σ) :=
  calls.foldlM call registry

/-- The registry can come about by calls. -/
def Reached (registry : Registry σ) : Prop :=
  exists (calls : List (Call σ)) (s : Session σ), (empty.callAll calls s).1 = .ok registry

/-! ## What has been registered -/

/-- The commands that candidates become, up to the first that becomes none. -/
def accepted (host : σ) : List (Candidate σ) -> List (Command σ)
  | [] => []
  | candidate :: rest =>
      match candidate.toCommand host with
      | .ok command => command :: accepted host rest
      | .error _ => []

def Call.hostAfter (host : σ) : Call σ -> σ
  | .elsewhere change => change host
  | _ => host

def Call.registeredAfter (host : σ) (registered : List (Command σ)) : Call σ -> List (Command σ)
  | .register candidate => registered ++ accepted host [candidate]
  | .registerMany candidates => registered ++ accepted host candidates
  | .reset => []
  | .elsewhere _ => registered

/-- The commands that calls have registered since the last reset, the oldest first. -/
def history (host : σ) (registered : List (Command σ)) : List (Call σ) -> List (Command σ)
  | [] => registered
  | call :: rest => history (call.hostAfter host) (call.registeredAfter host registered) rest

def insertAll (registry : Registry σ) (commands : List (Command σ)) : Registry σ :=
  commands.foldl insert registry

theorem insertAll_append (registry : Registry σ) (commands later : List (Command σ)) :
    registry.insertAll (commands ++ later) = (registry.insertAll commands).insertAll later :=
  List.foldl_append

/-! ## Single calls -/

theorem register_apply (registry : Registry σ) (candidate : Candidate σ) (s : Session σ) :
    (registry.register candidate s).1 = (candidate.toCommand s.host).map
        (fun command => (registry.insert command, command)) ∧
      (registry.register candidate s).2.host = s.host := by
  unfold register
  rw [Action.bind_apply, Action.get_apply, Action.next_ok, Action.bind_apply, Action.settle_apply]
  cases candidate.toCommand s.host with
  | error failure => exact ⟨rfl, rfl⟩
  | ok command =>
      rw [Action.next_ok]
      cases registry.contains command.name with
      | true => exact ⟨rfl, rfl⟩
      | false => exact ⟨rfl, rfl⟩

theorem register_refused (registry : Registry σ) {candidate : Candidate σ} {s : Session σ}
    {failure : Failure} (hrefused : candidate.toCommand s.host = .error failure) :
    registry.register candidate s = (.error failure, s) := by
  unfold register
  rw [Action.bind_apply, Action.get_apply, Action.next_ok, Action.bind_apply,
    Action.settle_apply, hrefused]
  rfl

theorem registerMany_apply (registry : Registry σ) (candidates : List (Candidate σ))
    (s : Session σ) :
    (registry.registerMany candidates s).1 =
        .ok (registry.insertAll (accepted s.host candidates),
          candidates.mapM fun candidate => candidate.toCommand s.host) ∧
      (registry.registerMany candidates s).2.host = s.host := by
  induction candidates generalizing registry s with
  | nil => exact ⟨rfl, rfl⟩
  | cons candidate rest ih =>
      rcases registry.register_apply candidate s with ⟨houtcome, hhost⟩
      rw [registerMany, Action.bind_apply, Action.attempt_apply, houtcome, Action.next_ok,
        accepted, List.mapM_cons]
      cases candidate.toCommand s.host with
      | error failure => exact ⟨rfl, hhost⟩
      | ok command =>
          rcases ih (registry.insert command) (registry.register candidate s).2 with
            ⟨hrest, hhost'⟩
          rw [hhost] at hrest hhost'
          change (((registry.insert command).registerMany rest >>= fun outcome =>
              (pure (outcome.1, outcome.2.map (command :: ·)) : Action _ _)) _).1 = _ ∧
            (((registry.insert command).registerMany rest >>= fun outcome =>
              (pure (outcome.1, outcome.2.map (command :: ·)) : Action _ _)) _).2.host = _
          rw [Action.bind_apply, Action.next_of_ok hrest]
          refine ⟨?_, hhost'⟩
          cases rest.mapM fun candidate => candidate.toCommand s.host with
          | error failure => rfl
          | ok commands => rfl

/-! ## Runs of calls -/

theorem call_apply (registered : List (Command σ)) (made : Call σ) (s : Session σ) :
    (((empty.insertAll registered).call made) s).1 =
        .ok (empty.insertAll (made.registeredAfter s.host registered)) ∧
      (((empty.insertAll registered).call made) s).2.host = made.hostAfter s.host := by
  cases made with
  | register candidate =>
      rcases (empty.insertAll registered).register_apply candidate s with ⟨houtcome, hhost⟩
      rw [call, Action.bind_apply, Action.attempt_apply, houtcome, Action.next_ok,
        Call.registeredAfter, insertAll_append, accepted]
      cases candidate.toCommand s.host with
      | error failure => exact ⟨rfl, hhost⟩
      | ok command => exact ⟨rfl, hhost⟩
  | registerMany candidates =>
      rcases (empty.insertAll registered).registerMany_apply candidates s with ⟨houtcome, hhost⟩
      rw [call, Action.bind_apply, Action.next_of_ok houtcome, Call.registeredAfter,
        insertAll_append]
      exact ⟨rfl, hhost⟩
  | reset => exact ⟨rfl, rfl⟩
  | elsewhere change => exact ⟨rfl, rfl⟩

/-- Calls never fail, and they come to the registry of what they have registered. -/
theorem callAll_apply (registered : List (Command σ)) (calls : List (Call σ)) (s : Session σ) :
    ((empty.insertAll registered).callAll calls s).1 =
      .ok (empty.insertAll (history s.host registered calls)) := by
  induction calls generalizing registered s with
  | nil => rfl
  | cons made rest ih =>
      rcases call_apply registered made s with ⟨hregistry, hhost⟩
      rw [callAll, List.foldlM_cons, Action.bind_apply, Action.next_of_ok hregistry, history,
        ← hhost]
      exact ih _ _

/-! ## Members of the history -/

theorem accepted_mem {host : σ} {candidates : List (Candidate σ)} {command : Command σ}
    (hmem : command ∈ accepted host candidates) :
    exists candidate, candidate ∈ candidates ∧ candidate.toCommand host = .ok command := by
  induction candidates with
  | nil => cases hmem
  | cons candidate rest ih =>
      rw [accepted] at hmem
      cases hcommand : candidate.toCommand host with
      | error failure =>
          rw [hcommand] at hmem
          cases hmem
      | ok first =>
          rw [hcommand] at hmem
          rcases List.mem_cons.mp hmem with hfirst | hrest
          · exact ⟨candidate, List.mem_cons_self, by rw [hcommand, hfirst]⟩
          · rcases ih hrest with ⟨other, hother, hresult⟩
            exact ⟨other, List.mem_cons_of_mem candidate hother, hresult⟩

/-- The command is what some candidate became. -/
def IsAccepted (command : Command σ) : Prop :=
  exists (candidate : Candidate σ) (host : σ), candidate.toCommand host = .ok command

theorem registeredAfter_accepted {host : σ} {registered : List (Command σ)} {made : Call σ}
    (hregistered : forall c, c ∈ registered -> IsAccepted c) {command : Command σ}
    (hmem : command ∈ made.registeredAfter host registered) : IsAccepted command := by
  have hadded : forall candidates, command ∈ registered ++ accepted host candidates ->
      IsAccepted command := by
    intro candidates hmem
    rcases List.mem_append.mp hmem with hold | hnew
    · exact hregistered command hold
    · rcases accepted_mem hnew with ⟨candidate, _, hcommand⟩
      exact ⟨candidate, host, hcommand⟩
  cases made with
  | register candidate => exact hadded _ hmem
  | registerMany candidates => exact hadded _ hmem
  | reset => cases hmem
  | elsewhere change => exact hregistered command hmem

theorem history_accepted {host : σ} {registered : List (Command σ)} {calls : List (Call σ)}
    (hregistered : forall c, c ∈ registered -> IsAccepted c) {command : Command σ}
    (hmem : command ∈ history host registered calls) : IsAccepted command := by
  induction calls generalizing host registered with
  | nil => exact hregistered command hmem
  | cons made rest ih =>
      apply ih _ hmem
      intro c hc
      exact registeredAfter_accepted hregistered hc

/-- A registry that can come about by calls holds commands registered one by one. -/
theorem Reached.eq_insertAll {registry : Registry σ} (hreached : registry.Reached) :
    exists registered : List (Command σ), registry = empty.insertAll registered ∧
      forall c, c ∈ registered -> IsAccepted c := by
  rcases hreached with ⟨calls, s, hcalls⟩
  refine ⟨history s.host [] calls, ?_, ?_⟩
  · have hrun := callAll_apply [] calls s
    rw [show empty.insertAll [] = (empty : Registry σ) from rfl, hcalls] at hrun
    exact Except.ok.inj hrun
  · intro c hc
    exact history_accepted (fun _ hnone => by cases hnone) hc

end Registry

end OperatorConsole
