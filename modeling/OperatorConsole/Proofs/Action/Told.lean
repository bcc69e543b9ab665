import OperatorConsole.Proofs.Action.Watched

/-!
# What is told of actions

An action on a watched host tells the events that it notes.  Events that were noted before
stay, so what a sequence of actions tells is what each of them tells, one after the other.

## Orderly events

The outcome of an operation is often known only as long as the parts that it calls behave.
When the events record how the parts behaved, this can be said of them: what `Tells` says of an
action holds if all that it tells is orderly.
-/

namespace OperatorConsole

namespace Action

def observe (event : Except Failure α -> ε) (a : Action σ α) : Action (Watched σ ε) α := do
  let outcome ← (watch a).attempt
  note (event outcome)
  settle outcome

/-- Whatever is noted already stays noted. -/
def Extends (a : Action (Watched σ ε) α) : Prop :=
  forall s, exists told, (a s).2.host.events = s.host.events ++ told

/-- What is true of the events that an action tells and of its outcome, if they are orderly. -/
def Tells (orderly : ε -> Prop) (good : List ε -> Except Failure α -> Prop)
    (a : Action (Watched σ ε) α) : Prop :=
  forall s, exists told, (a s).2.host.events = s.host.events ++ told ∧
    ((forall event, event ∈ told -> orderly event) -> good told (a s).1)

/-! ## Extending -/

def Survives (known : List ε -> Prop) (event : Except Failure α -> ε) (a : Action σ α) : Prop :=
  forall s events, known events -> known (events ++ [event (a s).1])

/-- Knowledge of events that no further event takes away. -/
def Lasting (known : List ε -> Prop) : Prop :=
  forall events event, known events -> known (events ++ [event])

theorem Lasting.survives {known : List ε -> Prop} (hlasting : Lasting known)
    (event : Except Failure α -> ε) (a : Action σ α) : Survives known event a := by
  intro s events hknown
  exact hlasting events _ hknown

theorem Survives.agree {known : List ε -> Prop} {event : Except Failure α -> ε} {a : Action σ α}
    (hsurvives : Survives known event a) :
    Agree (Tracks known) (fun _ => True) (fun _ => True) (observe event a) a := by
  rintro ⟨⟨host, events⟩, journal⟩ ⟨host', journal'⟩ ⟨hhost, hknown⟩ hjournals
  change host = host' at hhost
  change journal = journal' at hjournals
  subst hhost
  subst hjournals
  exact ⟨⟨rfl, hsurvives _ _ hknown⟩, rfl, rfl, Ends.trivial _⟩

theorem Agree.extends {good : α -> Prop} {bad : Failure -> Prop} {a : Action (Watched σ ε) α}
    {b : Action σ α}
    (hagree : forall known, Lasting known -> Agree (Tracks known) good bad a b) :
    Extends a := by
  intro s
  have hlasting : Lasting fun events => exists told, events = s.host.events ++ told := by
    rintro events event ⟨told, htold⟩
    exact ⟨told ++ [event], by rw [htold, List.append_assoc]⟩
  exact ((hagree _ hlasting).watchedSide ⟨[], (List.append_nil _).symm⟩).1

theorem Extends.settle (result : Except Failure α) :
    Extends (Action.settle result : Action (Watched σ ε) α) := by
  intro s
  exact ⟨[], (List.append_nil _).symm⟩

theorem Extends.log (entry : LogEntry) :
    Extends (Action.log entry : Action (Watched σ ε) Unit) := by
  intro s
  exact ⟨[], (List.append_nil _).symm⟩

theorem Extends.observe (event : Except Failure α -> ε) (a : Action σ α) :
    Extends (Action.observe event a) := by
  intro s
  exact ⟨[event (a s.forget).1], rfl⟩

theorem Extends.bind {a : Action (Watched σ ε) β} {step : β -> Action (Watched σ ε) α}
    (ha : Extends a) (hstep : forall x, Extends (step x)) : Extends (a >>= step) := by
  intro s
  rcases ha s with ⟨told, hevents⟩
  rw [bind_apply]
  cases hrun : a s with
  | mk result t =>
      rw [hrun] at hevents
      change t.host.events = s.host.events ++ told at hevents
      cases result with
      | error failure => exact ⟨told, hevents⟩
      | ok x =>
          rcases hstep x t with ⟨more, hmore⟩
          exact ⟨told ++ more, by rw [next_ok, hmore, hevents, List.append_assoc]⟩

/-! ## Telling -/

variable {orderly : ε -> Prop}

theorem Tells.mono {good good' : List ε -> Except Failure α -> Prop}
    {a : Action (Watched σ ε) α} (htells : Tells orderly good a)
    (hgood : forall told result, good told result -> good' told result) :
    Tells orderly good' a := by
  intro s
  rcases htells s with ⟨told, hevents, hresult⟩
  exact ⟨told, hevents, fun horderly => hgood told _ (hresult horderly)⟩

theorem Tells.settle {good : List ε -> Except Failure α -> Prop} {result : Except Failure α}
    (hresult : good [] result) :
    Tells orderly good (Action.settle result : Action (Watched σ ε) α) := by
  intro s
  exact ⟨[], (List.append_nil _).symm, fun _ => hresult⟩

theorem Tells.pure {good : List ε -> Except Failure α -> Prop} {x : α} (hx : good [] (.ok x)) :
    Tells orderly good (Pure.pure x : Action (Watched σ ε) α) :=
  Tells.settle hx

/-- An action that succeeds and tells nothing. -/
def Silent (a : Action (Watched σ ε) α) : Prop :=
  forall s, (exists x, (a s).1 = .ok x) ∧ (a s).2.host.events = s.host.events

theorem silent_log (entry : LogEntry) :
    Silent (Action.log entry : Action (Watched σ ε) Unit) := by
  intro s
  exact ⟨⟨(), rfl⟩, rfl⟩

theorem Silent.extends {a : Action (Watched σ ε) α} (hsilent : Silent a) : Extends a := by
  intro s
  exact ⟨[], by rw [(hsilent s).2, List.append_nil]⟩

theorem Tells.silent {good : List ε -> Except Failure α -> Prop} {a : Action (Watched σ ε) α}
    (hsilent : Silent a) (hresult : forall x, good [] (.ok x)) : Tells orderly good a := by
  intro s
  rcases hsilent s with ⟨⟨x, hx⟩, hevents⟩
  refine ⟨[], by rw [hevents, List.append_nil], ?_⟩
  intro _
  rw [hx]
  exact hresult x

theorem Tells.after {good : List ε -> Except Failure α -> Prop} {a : Action (Watched σ ε) β}
    {step : β -> Action (Watched σ ε) α} (hsilent : Silent a)
    (hstep : forall x, Tells orderly good (step x)) : Tells orderly good (a >>= step) := by
  intro s
  rcases hsilent s with ⟨⟨x, hx⟩, hevents⟩
  rw [bind_apply, next_of_ok hx, ← hevents]
  exact hstep x _

theorem settle_ok_bind (x : β) (step : β -> Action σ α) :
    (Action.settle (.ok x) >>= step) = step x := rfl

theorem Tells.observe {good : List ε -> Except Failure α -> Prop}
    {event : Except Failure α -> ε} (a : Action σ α)
    (hresult : forall result, orderly (event result) -> good [event result] result) :
    Tells orderly good (Action.observe event a) := by
  intro s
  refine ⟨[event (a s.forget).1], rfl, ?_⟩
  intro horderly
  exact hresult _ (horderly _ List.mem_cons_self)

theorem Tells.attempt {good : List ε -> Except Failure α -> Prop} {a : Action (Watched σ ε) α}
    (htells : Tells orderly good a) :
    Tells orderly (fun told outcome => exists result, outcome = .ok result ∧ good told result)
      a.attempt := by
  intro s
  rcases htells s with ⟨told, hevents, hresult⟩
  exact ⟨told, hevents, fun horderly => ⟨_, rfl, hresult horderly⟩⟩

/-- The events of the first action come before those of the step that follows.  The step has
to keep the events even where the first action was disorderly. -/
theorem Tells.bind {first : List ε -> Except Failure β -> Prop}
    {good : List ε -> Except Failure α -> Prop} {a : Action (Watched σ ε) β}
    {step : β -> Action (Watched σ ε) α} (htells : Tells orderly first a)
    (hextends : forall x, Extends (step x))
    (hstep : forall told x, first told (.ok x) ->
      Tells orderly (fun more result => good (told ++ more) result) (step x))
    (hfailed : forall told failure, first told (.error failure) -> good told (.error failure)) :
    Tells orderly good (a >>= step) := by
  intro s
  rcases htells s with ⟨told, hevents, hresult⟩
  rw [bind_apply]
  cases ha : a s with
  | mk result t =>
      rw [ha] at hevents hresult
      cases result with
      | error failure => exact ⟨told, hevents, fun horderly => hfailed told _ (hresult horderly)⟩
      | ok x =>
          change t.host.events = s.host.events ++ told at hevents
          rw [next_ok]
          by_cases horderly : forall event, event ∈ told -> orderly event
          · rcases hstep told x (hresult horderly) t with ⟨more, hmore, hresult'⟩
            refine ⟨told ++ more, by rw [hmore, hevents, List.append_assoc], ?_⟩
            intro hall
            exact hresult' fun event hevent => hall event (List.mem_append_right told hevent)
          · rcases hextends x t with ⟨more, hmore⟩
            refine ⟨told ++ more, by rw [hmore, hevents, List.append_assoc], ?_⟩
            intro hall
            exact absurd (fun event hevent => hall event (List.mem_append_left more hevent))
              horderly

end Action

end OperatorConsole
