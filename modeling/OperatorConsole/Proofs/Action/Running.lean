import OperatorConsole.Journal
import OperatorConsole.Proofs.Action.Items

/-!
# Running actions

What an action does to a session, construct by construct: each statement gives the outcome
of a construct and the session that it leaves behind.
-/

namespace OperatorConsole

namespace Action

def next (step : α -> Action σ β) :
    Except Failure α × Session σ -> Except Failure β × Session σ
  | (.ok x, s) => step x s
  | (.error failure, s) => (.error failure, s)

@[simp] theorem next_ok (step : α -> Action σ β) (x : α) (s : Session σ) :
    next step (.ok x, s) = step x s := rfl

@[simp] theorem next_error (step : α -> Action σ β) (failure : Failure) (s : Session σ) :
    next step (.error failure, s) = (.error failure, s) := rfl

@[simp] theorem bind_apply (a : Action σ α) (step : α -> Action σ β) (s : Session σ) :
    (a >>= step) s = next step (a s) := by
  simp only [bind, ExceptT.bind, ExceptT.mk, StateT.bind, ExceptT.bindCont]
  cases hrun : a s with
  | mk result s' =>
      cases result with
      | ok x => rfl
      | error failure => rfl

@[simp] theorem pure_apply (x : α) (s : Session σ) :
    (pure x : Action σ α) s = (.ok x, s) := rfl

@[simp] theorem get_apply (s : Session σ) : (get : Action σ (Session σ)) s = (.ok s, s) := rfl

@[simp] theorem settle_apply (result : Except Failure α) (s : Session σ) :
    settle result s = (result, s) := rfl

@[simp] theorem attempt_apply (a : Action σ α) (s : Session σ) :
    a.attempt s = (.ok (a s).1, (a s).2) := rfl

@[simp] theorem log_apply (entry : LogEntry) (s : Session σ) :
    log entry s = (.ok (), { s with journal := s.journal ++ [entry] }) := rfl

theorem next_of_ok {step : α -> Action σ β} {outcome : Except Failure α × Session σ} {x : α}
    (hok : outcome.1 = .ok x) : next step outcome = step x outcome.2 := by
  rcases outcome with ⟨result, t⟩
  cases hok
  rfl

theorem next_ok_of_ok {step : α -> Action σ β} {outcome : Except Failure α × Session σ} {y : β}
    (hnext : (next step outcome).1 = .ok y) :
    exists x, outcome.1 = .ok x ∧ (step x outcome.2).1 = .ok y := by
  rcases outcome with ⟨result, t⟩
  cases result with
  | ok x => exact ⟨x, rfl, hnext⟩
  | error failure => cases hnext

theorem bind_ok {a : Action σ β} {step : β -> Action σ α} {s : Session σ} {y : α}
    (hbind : ((a >>= step) s).1 = .ok y) :
    exists x t, (a s).1 = .ok x ∧ (step x t).1 = .ok y := by
  rw [bind_apply] at hbind
  rcases next_ok_of_ok hbind with ⟨x, hx, hy⟩
  exact ⟨x, _, hx, hy⟩

/-! ## Steps through a list -/

theorem mapM_pairs {step : α -> Action σ β} {Pairs : α -> β -> Prop}
    (hstep : forall x s y, (step x s).1 = .ok y -> Pairs x y) {items : List α}
    {s : Session σ} {results : List β} (hresults : (items.mapM step s).1 = .ok results) :
    List.Forall₂ Pairs items results := by
  induction items generalizing s results with
  | nil =>
      cases hresults
      exact .nil
  | cons item rest ih =>
      rw [List.mapM_cons] at hresults
      rcases bind_ok hresults with ⟨result, t, hresult, hrest⟩
      rcases bind_ok hrest with ⟨others, _, hothers, hgiven⟩
      cases hgiven
      exact .cons (hstep item s result hresult) (ih hothers)

theorem mapM_shows {step : α -> Action σ β} {shown : β -> γ} {shown' : α -> γ}
    (hstep : forall x s y, (step x s).1 = .ok y -> shown y = shown' x) {items : List α}
    {s : Session σ} {results : List β} (hresults : (items.mapM step s).1 = .ok results) :
    results.map shown = items.map shown' := by
  rw [← List.forall₂_eq_eq_eq, List.forall₂_map_left_iff, List.forall₂_map_right_iff]
  exact (mapM_pairs hstep hresults).flip

/-! ## Actions that succeed -/

/-- The action always gives a value. -/
def Gives (a : Action σ α) : Prop :=
  forall s, exists x, (a s).1 = .ok x

theorem Gives.pure (x : α) : Gives (Pure.pure x : Action σ α) :=
  fun _ => ⟨x, rfl⟩

theorem Gives.bind {a : Action σ β} {step : β -> Action σ α} (ha : Gives a)
    (hstep : forall x, Gives (step x)) : Gives (a >>= step) := by
  intro s
  rcases ha s with ⟨x, hx⟩
  rw [bind_apply, next_of_ok hx]
  exact hstep x _

def Constant (a : Action σ α) : Prop :=
  exists x, forall s, (a s).1 = .ok x

theorem Constant.pure (x : α) : Constant (Pure.pure x : Action σ α) :=
  ⟨x, fun _ => rfl⟩

theorem Constant.bind {a : Action σ β} {step : β -> Action σ α} (ha : Constant a)
    (hstep : forall x, Constant (step x)) : Constant (a >>= step) := by
  rcases ha with ⟨x, hx⟩
  rcases hstep x with ⟨y, hy⟩
  refine ⟨y, ?_⟩
  intro s
  rw [bind_apply, next_of_ok (hx s)]
  exact hy _

theorem Constant.mapM {step : α -> Action σ β} {items : List α}
    (hstep : forall item, item ∈ items -> Constant (step item)) : Constant (items.mapM step) := by
  induction items with
  | nil => exact Constant.pure []
  | cons item rest ih =>
      rw [List.mapM_cons]
      refine (hstep item List.mem_cons_self).bind fun result => ?_
      refine (ih fun other hother => hstep other (List.mem_cons_of_mem item hother)).bind ?_
      exact fun results => Constant.pure _

/-! ## Matching -/

/-- Wherever the first action gives a value, the second gives the same one. -/
def Matches (a b : Action σ α) : Prop :=
  forall s x, (a s).1 = .ok x -> (b s).1 = .ok x

theorem Matches.refl (a : Action σ α) : Matches a a := by
  intro s x hx
  exact hx

theorem Matches.bind {a : Action σ β} {step step' : β -> Action σ α}
    (hstep : forall x, Matches (step x) (step' x)) : Matches (a >>= step) (a >>= step') := by
  intro s y hy
  rw [bind_apply] at hy
  rcases next_ok_of_ok hy with ⟨x, hx, hx'⟩
  rw [bind_apply, next_of_ok hx]
  exact hstep x _ y hx'

end Action

end OperatorConsole
