import OperatorConsole.Proofs.Action.Running

/-!
# Contracts of actions

A contract compares an action with one of the same kind on another host.  If the hosts are
related before, the two actions do the same: they have the same outcome, they log the same
and they leave the hosts related.  A contract also says what is true of a value that is given
and of a failure.

An action that is compared with itself, on a host that is related to nothing but itself, is
merely said to end as told.  The other use is a host beside the same host with something
added to it.

Contracts are put together along the constructs of actions, so that the contract of an
operation is read off its definition.
-/

namespace OperatorConsole

/-- What is true of an outcome, given what is true of values and of failures. -/
def Ends (good : α -> Prop) (bad : Failure -> Prop) : Except Failure α -> Prop
  | .ok x => good x
  | .error failure => bad failure

theorem Ends.mono
    {good good' : α -> Prop} {bad bad' : Failure -> Prop} {result : Except Failure α}
    (hgood : forall x, good x -> good' x) (hbad : forall failure, bad failure -> bad' failure)
    (hends : Ends good bad result) :
    Ends good' bad' result := by
  cases result with
  | ok x => exact hgood x hends
  | error failure => exact hbad failure hends

theorem Ends.trivial (result : Except Failure α) :
    Ends (fun _ => True) (fun _ => True) result := by
  cases result with
  | ok x => exact True.intro
  | error failure => exact True.intro

theorem Ends.self (result : Except Failure α) :
    Ends (fun x => result = .ok x) (fun _ => True) result := by
  cases result with
  | ok x => rfl
  | error failure => exact True.intro

theorem Ends.bind
    {middle : β -> Prop} {good : α -> Prop} {bad : Failure -> Prop} {result : Except Failure β}
    {step : β -> Except Failure α} (hends : Ends middle bad result)
    (hstep : forall x, middle x -> Ends good bad (step x)) :
    Ends good bad (result >>= step) := by
  cases result with
  | ok x => exact hstep x hends
  | error failure => exact hends

theorem Ends.foldlM
    {holds : β -> Prop} {bad : Failure -> Prop} {step : β -> α -> Except Failure β}
    {items : List α}
    (hstep : forall x, holds x -> forall item, item ∈ items -> Ends holds bad (step x item)) :
    forall x, holds x -> Ends holds bad (items.foldlM step x) := by
  induction items with
  | nil =>
      intro x hx
      exact hx
  | cons item rest ih =>
      intro x hx
      rw [List.foldlM_cons]
      apply (hstep x hx item List.mem_cons_self).bind
      intro y hy
      refine ih ?_ y hy
      intro z hz other hother
      exact hstep z hz other (List.mem_cons_of_mem item hother)

theorem bind_eq_ok {result : Except ε β} {step : β -> Except ε α} {y : α} :
    result >>= step = .ok y ↔ exists x, result = .ok x ∧ step x = .ok y := by
  cases result with
  | ok x => simp [bind, Except.bind]
  | error fault => simp [bind, Except.bind]

/-- What is true of a result if there is one. -/
def Yields (good : α -> Prop) (result : Except ε α) : Prop :=
  forall x, result = .ok x -> good x

theorem Yields.ok {good : α -> Prop} {x : α} (hx : good x) :
    Yields good (.ok x : Except ε α) := by
  intro y hy
  cases hy
  exact hx

theorem Yields.error {good : α -> Prop} (fault : ε) :
    Yields good (.error fault : Except ε α) := by
  intro y hy
  cases hy

theorem Yields.bind
    {middle : β -> Prop} {good : α -> Prop} {result : Except ε β} {step : β -> Except ε α}
    (hyields : Yields middle result) (hstep : forall x, middle x -> Yields good (step x)) :
    Yields good (result >>= step) := by
  cases result with
  | ok x => exact hstep x (hyields x rfl)
  | error fault => exact Yields.error fault

theorem Yields.behind {good : α -> Prop} {result : Except ε β} {step : β -> Except ε α}
    (hstep : forall x, Yields good (step x)) : Yields good (result >>= step) := by
  cases result with
  | ok x => exact hstep x
  | error fault => exact Yields.error fault

theorem Yields.mapM
    {good : β -> Prop} {f : α -> Except ε β} {items : List α}
    (hf : forall item, item ∈ items -> Yields good (f item)) :
    Yields (fun results => forall x, x ∈ results -> good x) (items.mapM f) := by
  induction items with
  | nil =>
      apply Yields.ok
      intro x hx
      cases hx
  | cons item rest ih =>
      rw [List.mapM_cons]
      refine (hf item List.mem_cons_self).bind ?_
      intro x hx
      refine (ih fun other hother => hf other (List.mem_cons_of_mem item hother)).bind ?_
      intro xs hxs
      apply Yields.ok
      intro y hy
      rcases List.mem_cons.mp hy with rfl | hrest
      · exact hx
      · exact hxs y hrest

theorem Yields.self (result : Except ε α) : Yields (fun x => result = .ok x) result := by
  intro x hx
  exact hx

theorem Ends.ofYields {good : α -> Prop} {result : Except Failure α}
    (hyields : Yields good result) : Ends good (fun _ => True) result := by
  cases result with
  | ok x => exact hyields x rfl
  | error failure => exact True.intro

theorem Ends.yields {good : α -> Prop} {bad : Failure -> Prop} {result : Except Failure α}
    (hends : Ends good bad result) : Yields good result := by
  cases result with
  | ok x => exact Yields.ok hends
  | error failure => exact Yields.error failure

/-- A result is a value if that value is all that is left of it. -/
theorem eq_ok_of_toOption {result : Except ε α} {x : α} (hresult : result.toOption = some x) :
    result = .ok x := by
  cases result with
  | ok y => exact congrArg Except.ok (Option.some.inj hresult)
  | error fault => cases hresult

namespace Action

/-- On related hosts the two actions do the same and end as told. -/
def Agree (related : σ -> τ -> Prop) (good : α -> Prop) (bad : Failure -> Prop)
    (a : Action σ α) (b : Action τ α) : Prop :=
  forall s t, related s.host t.host -> s.journal = t.journal ->
    related (a s).2.host (b t).2.host ∧ (a s).2.journal = (b t).2.journal ∧
      (a s).1 = (b t).1 ∧ Ends good bad (a s).1

variable {related : σ -> τ -> Prop} {good : α -> Prop} {bad : Failure -> Prop}

theorem Agree.mono
    {good' : α -> Prop} {bad' : Failure -> Prop} {a : Action σ α} {b : Action τ α}
    (hagree : Agree related good bad a b)
    (hgood : forall x, good x -> good' x) (hbad : forall failure, bad failure -> bad' failure) :
    Agree related good' bad' a b := by
  intro s t hhosts hjournals
  rcases hagree s t hhosts hjournals with ⟨hhosts', hjournals', hresults, hends⟩
  exact ⟨hhosts', hjournals', hresults, hends.mono hgood hbad⟩

theorem Agree.self {a : Action σ α} (ha : forall s, Ends good bad (a s).1) :
    Agree (fun host host' => host = host') good bad a a := by
  rintro ⟨host, journal⟩ ⟨host', journal'⟩ hhosts hjournals
  change host = host' at hhosts
  change journal = journal' at hjournals
  subst hhosts
  subst hjournals
  exact ⟨rfl, rfl, rfl, ha _⟩

theorem Agree.ends {a b : Action σ α}
    (hagree : Agree (fun host host' => host = host') good bad a b) (s : Session σ) :
    Ends good bad (a s).1 :=
  (hagree s s rfl rfl).2.2.2

/-! ## Constructs -/

theorem Agree.pure {x : α} (hx : good x) :
    Agree related good bad (pure x) (pure x) := by
  intro s t hhosts hjournals
  exact ⟨hhosts, hjournals, rfl, hx⟩

theorem Agree.throw {failure : Failure} (hfailure : bad failure) :
    Agree related good bad (throw failure) (throw failure) := by
  intro s t hhosts hjournals
  exact ⟨hhosts, hjournals, rfl, hfailure⟩

theorem Agree.bind
    {middle : β -> Prop} {a : Action σ β} {b : Action τ β}
    {step : β -> Action σ α} {step' : β -> Action τ α}
    (hfirst : Agree related middle bad a b)
    (hstep : forall x, middle x -> Agree related good bad (step x) (step' x)) :
    Agree related good bad (a >>= step) (b >>= step') := by
  intro s t hhosts hjournals
  rcases hfirst s t hhosts hjournals with ⟨hhosts', hjournals', hresults, hends⟩
  rw [bind_apply, bind_apply]
  cases ha : a s with
  | mk result s' =>
      cases hb : b t with
      | mk result' t' =>
          rw [ha, hb] at hhosts' hjournals' hresults
          rw [ha] at hends
          change result = result' at hresults
          subst hresults
          cases result with
          | ok x => exact hstep x hends s' t' hhosts' hjournals'
          | error failure => exact ⟨hhosts', hjournals', rfl, hends⟩

theorem Agree.settle {result : Except Failure α} (hends : Ends good bad result) :
    Agree related good bad (settle result) (settle result) := by
  intro s t hhosts hjournals
  exact ⟨hhosts, hjournals, rfl, hends⟩

theorem Agree.log (entry : LogEntry) :
    Agree related (fun _ => True) bad (log entry) (log entry) := by
  intro s t hhosts hjournals
  refine ⟨hhosts, ?_, rfl, True.intro⟩
  rw [log_apply, log_apply]
  exact congrArg (fun journal => journal ++ [entry]) hjournals

theorem Agree.read {step : Session σ -> Action σ α} {step' : Session τ -> Action τ α}
    (hstep : forall s t, related s.host t.host -> Agree related good bad (step s) (step' t)) :
    Agree related good bad (get >>= step) (get >>= step') := by
  intro s t hhosts hjournals
  rw [bind_apply, bind_apply, get_apply, get_apply, next_ok, next_ok]
  exact hstep s t hhosts s t hhosts hjournals

theorem Agree.attempt {bad' : Failure -> Prop} {a : Action σ α} {b : Action τ α}
    (hagree : Agree related good bad a b) :
    Agree related (Ends good bad) bad' a.attempt b.attempt := by
  intro s t hhosts hjournals
  rcases hagree s t hhosts hjournals with ⟨hhosts', hjournals', hresults, hends⟩
  exact ⟨hhosts', hjournals', congrArg Except.ok hresults, hends⟩

theorem Agree.ite
    {p : Prop} [Decidable p] {a a' : Action σ α} {b b' : Action τ α}
    (hyes : p -> Agree related good bad a b) (hno : ¬ p -> Agree related good bad a' b') :
    Agree related good bad (if p then a else a') (if p then b else b') := by
  by_cases hp : p
  · rw [if_pos hp, if_pos hp]
    exact hyes hp
  · rw [if_neg hp, if_neg hp]
    exact hno hp

/-! ## Steps through a list -/

theorem Agree.foldlM
    {holds : β -> Prop} {step : β -> α -> Action σ β} {step' : β -> α -> Action τ β}
    {items : List α}
    (hstep : forall x, holds x -> forall item, item ∈ items ->
      Agree related holds bad (step x item) (step' x item)) :
    forall x, holds x -> Agree related holds bad (items.foldlM step x) (items.foldlM step' x) := by
  induction items with
  | nil =>
      intro x hx
      exact Agree.pure hx
  | cons item rest ih =>
      intro x hx
      rw [List.foldlM_cons, List.foldlM_cons]
      apply (hstep x hx item List.mem_cons_self).bind
      intro y hy
      refine ih ?_ y hy
      intro z hz other hother
      exact hstep z hz other (List.mem_cons_of_mem item hother)

theorem Agree.mapM {shown : β -> Prop} {step : α -> Action σ β} {step' : α -> Action τ β}
    {items : List α}
    (hstep : forall item, item ∈ items -> Agree related shown bad (step item) (step' item)) :
    Agree related (fun results => forall x, x ∈ results -> shown x) bad
      (items.mapM step) (items.mapM step') := by
  induction items with
  | nil =>
      apply Agree.pure
      intro x hx
      cases hx
  | cons item rest ih =>
      rw [List.mapM_cons, List.mapM_cons]
      apply (hstep item List.mem_cons_self).bind
      intro x hx
      apply (ih fun other hother => hstep other (List.mem_cons_of_mem item hother)).bind
      intro xs hxs
      apply Agree.pure
      intro y hy
      rcases List.mem_cons.mp hy with hfirst | hrest
      · rw [hfirst]
        exact hx
      · exact hxs y hrest

end Action

end OperatorConsole
