import OperatorConsole.Proofs.Action.Told

/-!
# Reports of watched actions

A report on an action says that watching it changes nothing, and what the watched action tells
and how it ends.  In contrast to what is merely told of an action, a report holds on every host,
orderly or not.
-/

namespace OperatorConsole

namespace Action

/-- The first action does what the second does on the host alone, and what it tells and how it
ends is as said. -/
def Reports (good : List ε -> Except Failure α -> Prop) (a : Action (Watched σ ε) α)
    (b : Action σ α) : Prop :=
  forall s, b s.forget = ((a s).1, (a s).2.forget) ∧
    exists told, (a s).2.host.events = s.host.events ++ told ∧ good told (a s).1

variable {good : List ε -> Except Failure α -> Prop}

theorem Reports.mono {good' : List ε -> Except Failure α -> Prop} {a : Action (Watched σ ε) α}
    {b : Action σ α} (hreports : Reports good a b)
    (hgood : forall told result, good told result -> good' told result) : Reports good' a b := by
  intro s
  rcases hreports s with ⟨hsame, told, hevents, hresult⟩
  exact ⟨hsame, told, hevents, hgood told _ hresult⟩

theorem Reports.settle {result : Except Failure α} (hresult : good [] result) :
    Reports good (Action.settle result : Action (Watched σ ε) α) (Action.settle result) := by
  intro s
  exact ⟨rfl, [], (List.append_nil _).symm, hresult⟩

theorem Reports.pure {x : α} (hx : good [] (.ok x)) :
    Reports good (Pure.pure x : Action (Watched σ ε) α) (Pure.pure x) :=
  Reports.settle hx

theorem Reports.throw {failure : Failure} (hfailure : good [] (.error failure)) :
    Reports good (MonadExcept.throw failure : Action (Watched σ ε) α)
      (MonadExcept.throw failure) :=
  Reports.settle hfailure

theorem Reports.observe {event : Except Failure α -> ε} {a : Action σ α}
    (hresult : forall s, good [event (a s).1] (a s).1) :
    Reports good (Action.observe event a) a := by
  intro s
  exact ⟨rfl, [event (a s.forget).1], rfl, hresult s.forget⟩

theorem Reports.bind {first : List ε -> Except Failure β -> Prop} {a : Action (Watched σ ε) β}
    {b : Action σ β} {step : β -> Action (Watched σ ε) α} {step' : β -> Action σ α}
    (hfirst : Reports first a b)
    (hstep : forall told x, first told (.ok x) ->
      Reports (fun more result => good (told ++ more) result) (step x) (step' x))
    (hfailed : forall told failure, first told (.error failure) -> good told (.error failure)) :
    Reports good (a >>= step) (b >>= step') := by
  intro s
  rcases hfirst s with ⟨hsame, told, hevents, hresult⟩
  rw [bind_apply, bind_apply, hsame]
  cases ha : a s with
  | mk result t =>
      rw [ha] at hevents hresult
      cases result with
      | error failure => exact ⟨rfl, told, hevents, hfailed told failure hresult⟩
      | ok x =>
          rcases hstep told x hresult t with ⟨hsame', more, hmore, hresult'⟩
          refine ⟨hsame', told ++ more, ?_, hresult'⟩
          rw [next_ok, hmore, hevents, List.append_assoc]

/-- What is reported of an action is reported of its run from where nothing has been told. -/
theorem Reports.fromStart {a : Action (Watched σ ε) α} {b : Action σ α}
    (hreports : Reports good a b) (s : Session σ) :
    b s = ((a s.watched).1, (a s.watched).2.forget) ∧
      good (a s.watched).2.host.events (a s.watched).1 := by
  rcases hreports s.watched with ⟨hsame, told, hevents, hresult⟩
  have htold : (a s.watched).2.host.events = told := hevents
  rw [htold]
  exact ⟨hsame, hresult⟩

end Action

end OperatorConsole
