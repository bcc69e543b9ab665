import OperatorConsole.Proofs.Action.Contract
import OperatorConsole.Proofs.Command.Checked
import OperatorConsole.Proofs.Registry.Order

/-!
# Frozen descriptors

A registry keeps the descriptors that it has checked.  Once a candidate is registered, its own
description may change in any way: whatever the registry is asked, it answers as if nothing had
changed, as long as the candidates themselves go by what they are given.  A candidate that is asked
on its own goes by its description as it is now.

## Shelves

The descriptions of candidates stand on a shelf, each in its own place, beside the rest of the
state of the host.  A candidate may look at the whole of it, and change it, in whatever it does.
It is self-contained if its validation leaves the shelf alone when it is given a schema, and if its
suppliers of choices do so at all times.

Two hosts beside each other have the same rest and descriptions of their own.  What leaves the
shelf alone does the same on both of them.
-/

namespace OperatorConsole

open OperatorConsole.Action

structure Shelf (ρ : Type) where
  descriptions : Nat -> Value
  rest : ρ

namespace Shelf

/-- Descriptions of which one has changed. -/
def changed (descriptions : Nat -> Value) (place : Nat) (change : Value -> Value) : Nat -> Value :=
  fun other => if other = place then change (descriptions place) else descriptions other

/-- The hosts have these descriptions, and the rest is the same. -/
structure Beside (d d' : Nat -> Value) (host host' : Shelf ρ) : Prop where
  left : host.descriptions = d
  right : host'.descriptions = d'
  rest_eq : host.rest = host'.rest

theorem changed_eq {d d' : Nat -> Value} {since : List Nat} {place : Nat}
    (hsame : forall other, other ∉ since -> d other = d' other) (change : Value -> Value) :
    forall other, other ∉ [place] ++ since -> changed d place change other = d' other := by
  intro other hother
  have hunchanged : other ≠ place ∧ other ∉ since := by
    simpa using hother
  unfold changed
  rw [if_neg hunchanged.1]
  exact hsame other hunchanged.2

theorem Beside.changed {d d' : Nat -> Value} {host host' : Shelf ρ}
    (hhosts : Beside d d' host host') (place : Nat) (change : Value -> Value) :
    Beside (changed d place change) d'
      { host with descriptions := Shelf.changed host.descriptions place change } host' := by
  constructor
  case left => exact congrArg (fun e => Shelf.changed e place change) hhosts.left
  case right => exact hhosts.right
  case rest_eq => exact hhosts.rest_eq

/-- Neither reads the descriptions nor changes them. -/
def LeavesAlone (a : Action (Shelf ρ) α) : Prop :=
  forall d d', Agree (Beside d d') (fun _ => True) (fun _ => True) a a

end Shelf

open OperatorConsole.Shelf

/-! ## Candidates -/

/-- What is offered for registration, and the places of the descriptions that it goes by. -/
structure Offer (ρ : Type) where
  candidate : Candidate (Shelf ρ)
  places : List Nat

namespace Offer

structure IsSelfContained (offer : Offer ρ) : Prop where
  described : forall host host', host.rest = host'.rest ->
    (forall place, place ∈ offer.places -> host.descriptions place = host'.descriptions place) ->
      offer.candidate.described host = offer.candidate.described host'
  validate : forall validate, offer.candidate.validate = some validate ->
    forall values schema, LeavesAlone (validate values (some schema))
  supply : forall name, LeavesAlone (offer.candidate.supply name)

end Offer

/-- A candidate with the standard validation, which passes its arguments on to further checks. -/
structure Base (ρ : Type) where
  place : Nat
  further : Value -> Option (List OptionSpec) -> Action (Shelf ρ) Unit
  execute : Value -> CommandContext -> Action (Shelf ρ) (Option CommandResult)
  supply : String -> Action (Shelf ρ) (List Value)

namespace Base

def described (b : Base ρ) (host : Shelf ρ) : Value :=
  host.descriptions b.place

def validate (b : Base ρ) (values : Value) (schema : Option (List OptionSpec)) :
    Action (Shelf ρ) Unit := do
  Candidate.validateOptions b.described values schema
  b.further values schema

def offer (b : Base ρ) : Offer ρ where
  candidate := ⟨b.described, some b.validate, some b.execute, b.supply⟩
  places := [b.place]

/-- Given a schema, the standard validation does not look at the description. -/
theorem isSelfContained {b : Base ρ}
    (hfurther : forall values schema, LeavesAlone (b.further values (some schema)))
    (hsupply : forall name, LeavesAlone (b.supply name)) : b.offer.IsSelfContained := by
  constructor
  case described => exact fun host host' _ hsame => hsame b.place List.mem_cons_self
  case validate =>
    intro validate hvalidate values schema d d'
    cases hvalidate
    have hstandard : Agree (Beside d d') (fun _ => True) (fun _ => True)
        (Candidate.validateOptions b.described values (some schema))
        (Candidate.validateOptions b.described values (some schema)) := by
      apply Agree.read
      intro s t _
      apply (Agree.settle (Ends.trivial (.ok schema))).bind
      intro schema' _
      apply (Agree.settle (Ends.trivial _)).bind
      intro r _
      exact Agree.settle (Ends.trivial _)
    exact hstandard.bind fun _ _ => hfurther values schema d d'
  case supply => exact hsupply

end Base

/-! ## Steps -/

namespace Registry

inductive View where
  | get (name : String)
  | all
  | groupByCategory
  | filterByRisk (risk : RiskLevel)
  | requiringConfirmation
  | toConfig
  /-- Asks the command of a name to validate options. -/
  | validate (name : String) (options : Value)

inductive Step (ρ : Type) where
  | register (offer : Offer ρ)
  | registerMany (offers : List (Offer ρ))
  | reset
  | view (v : View)
  /-- A description changes, in whatever way. -/
  | mutate (place : Nat) (change : Value -> Value)
  /-- The host program does something else. -/
  | elsewhere (change : ρ -> ρ)

inductive Answer (ρ : Type) where
  | registered (outcome : Except Failure (Command (Shelf ρ)))
  | registeredMany (outcome : Except Failure (List (Command (Shelf ρ))))
  | command (c : Option (Command (Shelf ρ)))
  | commands (cs : List (Command (Shelf ρ)))
  | groups (gs : List (String × List (Command (Shelf ρ))))
  | config (outcome : Except Failure (List CatalogEntry))
  | validated (outcome : Option (Except Failure Unit))

def look (registry : Registry (Shelf ρ)) : View -> Action (Shelf ρ) (Answer ρ)
  | .get name => return .command (registry.get? name)
  | .all => return .commands registry.commands
  | .groupByCategory => return .groups registry.groupByCategory
  | .filterByRisk risk => return .commands (registry.filterByRisk risk)
  | .requiringConfirmation => return .commands registry.requiringConfirmation
  | .toConfig => do
      let outcome ← Action.attempt registry.catalog
      return .config outcome
  | .validate name options =>
      match registry.get? name with
      | none => return .validated none
      | some command => do
          let outcome ← Action.attempt (command.validate options)
          return .validated (some outcome)

def take (registry : Registry (Shelf ρ)) :
    Step ρ -> Action (Shelf ρ) (Registry (Shelf ρ) × List (Answer ρ))
  | .register offer => do
      match ← Action.attempt (registry.register offer.candidate) with
      | .ok (registry, command) => return (registry, [.registered (.ok command)])
      | .error failure => return (registry, [.registered (.error failure)])
  | .registerMany offers => do
      let (registry, outcome) ← registry.registerMany (offers.map Offer.candidate)
      return (registry, [.registeredMany outcome])
  | .reset => return (registry.reset, [])
  | .view v => do
      let answer ← registry.look v
      return (registry, [answer])
  | .mutate place change => do
      modify fun s =>
        { s with host := { s.host with descriptions := changed s.host.descriptions place change } }
      return (registry, [])
  | .elsewhere change => do
      modify fun s => { s with host := { s.host with rest := change s.host.rest } }
      return (registry, [])

/-- The registry after all steps, and what they answer one after the other. -/
def takeAll (registry : Registry (Shelf ρ)) :
    List (Step ρ) -> Action (Shelf ρ) (Registry (Shelf ρ) × List (Answer ρ))
  | [] => return (registry, [])
  | step :: rest => do
      let (registry, answers) ← registry.take step
      let (registry, more) ← registry.takeAll rest
      return (registry, answers ++ more)

namespace Step

def isMutation : Step ρ -> Bool
  | .mutate _ _ => true
  | _ => false

def offers : Step ρ -> List (Offer ρ)
  | .register offer => [offer]
  | .registerMany offers => offers
  | _ => []

def places (step : Step ρ) : List Nat :=
  step.offers.flatMap Offer.places

def mutated : Step ρ -> List Nat
  | .mutate place _ => [place]
  | _ => []

def describe (d : Nat -> Value) : Step ρ -> Nat -> Value
  | .mutate place change => changed d place change
  | _ => d

theorem changes_nothing {step : Step ρ} (hunchanged : step.isMutation = false) (d : Nat -> Value) :
    step.mutated = [] ∧ step.describe d = d := by
  cases step with
  | mutate place change => cases hunchanged
  | _ => exact ⟨rfl, rfl⟩

end Step

/-- Nothing is registered by a description that has changed since the steps began, or that is
among those that had changed before. -/
def RegistersUnchanged (since : List Nat) : List (Step ρ) -> Prop
  | [] => True
  | step :: rest =>
      (forall place, place ∈ step.places -> place ∉ since) ∧
        RegistersUnchanged (step.mutated ++ since) rest

def describeAll (d : Nat -> Value) (steps : List (Step ρ)) : Nat -> Value :=
  steps.foldl Step.describe d

end Registry

/-! ## Parts that agree -/

/-- What the command validates and supplies depends on no description. -/
structure Command.IsDetached (command : Command (Shelf ρ)) : Prop where
  validate : forall options, LeavesAlone (command.validate options)
  supply : forall name, LeavesAlone (command.supply name)

namespace Offer

/-- A registered command always passes the schema on. -/
theorem IsSelfContained.isDetached {offer : Offer ρ} {host : Shelf ρ}
    {command : Command (Shelf ρ)} (hoffer : offer.IsSelfContained)
    (hcommand : offer.candidate.toCommand host = .ok command) : command.IsDetached := by
  rcases Candidate.parts_of_toCommand hcommand with ⟨_, validate, execute, hvalidate, _, hmade⟩
  rw [hmade]
  exact ⟨fun options => hoffer.validate validate hvalidate options _, hoffer.supply⟩

theorem IsSelfContained.toCommand_eq {offer : Offer ρ} (hoffer : offer.IsSelfContained)
    {d d' : Nat -> Value} {host host' : Shelf ρ} (hbeside : Beside d d' host host')
    (hsame : forall place, place ∈ offer.places -> d place = d' place) :
    offer.candidate.toCommand host = offer.candidate.toCommand host' := by
  have hdescribed : offer.candidate.described host = offer.candidate.described host' := by
    apply hoffer.described host host' hbeside.rest_eq
    rw [hbeside.left, hbeside.right]
    exact hsame
  unfold Candidate.toCommand
  rw [hdescribed]

end Offer

/-! ## Steps that agree -/

namespace Registry

/-- No command of the registry depends on a description. -/
def IsDetached (registry : Registry (Shelf ρ)) : Prop :=
  forall command, command ∈ registry.commands -> command.IsDetached

theorem IsDetached.insert {registry : Registry (Shelf ρ)} {command : Command (Shelf ρ)}
    (hdetached : registry.IsDetached) (hcommand : command.IsDetached) :
    (registry.insert command).IsDetached := by
  intro c hc
  rcases mem_insert hc with hnew | hold
  · rw [hnew]
    exact hcommand
  · exact hdetached c hold

section Agree

variable {d d' : Nat -> Value} {registry : Registry (Shelf ρ)}

theorem agree_register (hdetached : registry.IsDetached) {offer : Offer ρ}
    (hoffer : offer.IsSelfContained)
    (hsame : forall place, place ∈ offer.places -> d place = d' place) :
    Agree (Beside d d') (fun outcome => outcome.1.IsDetached) (fun _ => True)
      (registry.register offer.candidate) (registry.register offer.candidate) := by
  apply Agree.read
  intro s t hhosts
  have hends : Ends Command.IsDetached (fun _ => True) (offer.candidate.toCommand s.host) :=
    Ends.ofYields fun command hcommand => hoffer.isDetached hcommand
  rw [← hoffer.toCommand_eq hhosts hsame]
  apply (Agree.settle hends).bind
  intro command hcommand
  apply Agree.ite
  · intro _
    apply (Agree.log _).bind
    intro _ _
    apply (Agree.log _).bind
    intro _ _
    exact Agree.pure (hdetached.insert hcommand)
  · intro _
    apply (Agree.log _).bind
    intro _ _
    exact Agree.pure (hdetached.insert hcommand)

theorem agree_registerMany (hdetached : registry.IsDetached) {offers : List (Offer ρ)}
    (hoffers : forall offer, offer ∈ offers -> offer.IsSelfContained)
    (hsame : forall place, place ∈ offers.flatMap Offer.places -> d place = d' place) :
    Agree (Beside d d') (fun outcome => outcome.1.IsDetached) (fun _ => False)
      (registry.registerMany (offers.map Offer.candidate))
      (registry.registerMany (offers.map Offer.candidate)) := by
  induction offers generalizing registry with
  | nil => exact Agree.pure hdetached
  | cons offer rest ih =>
      rw [List.flatMap_cons, List.forall_mem_append] at hsame
      rcases List.forall_mem_cons.mp hoffers with ⟨hoffer, hothers⟩
      apply (agree_register hdetached hoffer hsame.1).attempt.bind
      intro outcome houtcome
      cases outcome with
      | error failure => exact Agree.pure hdetached
      | ok registered =>
          apply (ih houtcome hothers hsame.2).bind
          intro others hall
          exact Agree.pure hall

theorem agree_catalogEntry {command : Command (Shelf ρ)} (hdetached : command.IsDetached)
    (confirmation : Bool) :
    Agree (Beside d d') (fun _ => True) (fun _ => True)
      (command.catalogEntry confirmation) (command.catalogEntry confirmation) := by
  have hoption : forall o : OptionSpec, Agree (Beside d d') (fun _ => True) (fun _ => True)
      (CatalogOption.ofSpec command.supply o) (CatalogOption.ofSpec command.supply o) := by
    intro o
    apply Agree.ite
    · intro _
      have hchoices : Agree (Beside d d') (fun _ => True) (fun _ => True)
          (o.currentChoices command.supply) (o.currentChoices command.supply) := by
        unfold OptionSpec.currentChoices
        cases o.supplier with
        | some name => exact hdetached.supply name d d'
        | none => exact Agree.pure trivial
      exact hchoices.bind fun _ _ => Agree.pure trivial
    · intro _
      exact Agree.pure trivial
  apply (Agree.mapM fun o _ => hoption o).bind
  intro options _
  exact Agree.pure trivial

theorem agree_look (hdetached : registry.IsDetached) (v : View) :
    Agree (Beside d d') (fun _ => True) (fun _ => False) (registry.look v) (registry.look v) := by
  cases v with
  | get name => exact Agree.pure trivial
  | all => exact Agree.pure trivial
  | groupByCategory => exact Agree.pure trivial
  | filterByRisk risk => exact Agree.pure trivial
  | requiringConfirmation => exact Agree.pure trivial
  | toConfig =>
      have hcatalog : Agree (Beside d d') (fun results => forall x, x ∈ results -> True)
          (fun _ => True) registry.catalog registry.catalog :=
        Agree.mapM fun command hmem => agree_catalogEntry (hdetached command hmem) _
      exact hcatalog.attempt.bind fun _ _ => Agree.pure trivial
  | validate name options =>
      unfold look
      dsimp only
      cases hget : registry.get? name with
      | none => exact Agree.pure trivial
      | some command =>
          have hcommand := hdetached command (List.mem_of_find?_eq_some hget)
          exact (hcommand.validate options d d').attempt.bind fun _ _ => Agree.pure trivial

/-- A step that changes no description does the same whatever became of those that it does not
register by. -/
theorem agree_take (hdetached : registry.IsDetached) {step : Step ρ}
    (hunchanged : step.isMutation = false)
    (hoffers : forall offer, offer ∈ step.offers -> offer.IsSelfContained)
    (hsame : forall place, place ∈ step.places -> d place = d' place) :
    Agree (Beside d d') (fun outcome => outcome.1.IsDetached) (fun _ => False)
      (registry.take step) (registry.take step) := by
  cases step with
  | register offer =>
      have hplaces : forall place, place ∈ offer.places -> d place = d' place := by
        simpa [Step.places, Step.offers] using hsame
      apply (agree_register hdetached (hoffers offer List.mem_cons_self) hplaces).attempt.bind
      intro outcome houtcome
      cases outcome with
      | ok registered => exact Agree.pure houtcome
      | error failure => exact Agree.pure hdetached
  | registerMany offers =>
      apply (agree_registerMany hdetached hoffers hsame).bind
      intro outcome houtcome
      exact Agree.pure houtcome
  | reset =>
      apply Agree.pure
      intro command hnone
      cases hnone
  | view v =>
      apply (agree_look hdetached v).bind
      intro answer _
      exact Agree.pure hdetached
  | mutate place change => cases hunchanged
  | elsewhere change =>
      intro s t hhosts hjournals
      refine ⟨⟨hhosts.left, hhosts.right, ?_⟩, hjournals, rfl, hdetached⟩
      exact congrArg change hhosts.rest_eq

end Agree

/-! ## Runs of steps -/

theorem takeAll_cons {registry registry' final : Registry (Shelf ρ)} {step : Step ρ}
    {rest : List (Step ρ)} {answers more : List (Answer ρ)} {s : Session (Shelf ρ)}
    (htake : (registry.take step s).1 = .ok (registry', answers))
    (hrest : (registry'.takeAll rest (registry.take step s).2).1 = .ok (final, more)) :
    (registry.takeAll (step :: rest) s).1 = .ok (final, answers ++ more) ∧
      (registry.takeAll (step :: rest) s).2 =
        (registry'.takeAll rest (registry.take step s).2).2 := by
  rw [takeAll, bind_apply, next_of_ok htake]
  dsimp only
  rw [bind_apply, next_of_ok hrest]
  exact ⟨rfl, rfl⟩

theorem takeAll_beside {steps : List (Step ρ)} {since : List Nat} {d d' : Nat -> Value}
    {registry : Registry (Shelf ρ)} {s t : Session (Shelf ρ)}
    (hsteps : RegistersUnchanged since steps)
    (hoffers : forall offer, offer ∈ steps.flatMap Step.offers -> offer.IsSelfContained)
    (hsame : forall place, place ∉ since -> d place = d' place) (hdetached : registry.IsDetached)
    (hhosts : Beside d d' s.host t.host) (hjournals : s.journal = t.journal) :
    exists outcome, (registry.takeAll steps s).1 = .ok outcome ∧
      (registry.takeAll (steps.filter fun step => !step.isMutation) t).1 = .ok outcome ∧
      Beside (describeAll d steps) d' (registry.takeAll steps s).2.host
        (registry.takeAll (steps.filter fun step => !step.isMutation) t).2.host ∧
      (registry.takeAll steps s).2.journal =
        (registry.takeAll (steps.filter fun step => !step.isMutation) t).2.journal := by
  induction steps generalizing since d registry s t with
  | nil => exact ⟨(registry, []), rfl, rfl, hhosts, hjournals⟩
  | cons step rest ih =>
      rcases hsteps with ⟨hplaces, hrest⟩
      rw [List.flatMap_cons, List.forall_mem_append] at hoffers
      cases hmutation : step.isMutation with
      | true =>
          cases step with
          | mutate place change =>
              have htake : (registry.take (.mutate place change) s).1 = .ok (registry, []) := rfl
              have hhosts' : Beside (changed d place change) d'
                  (registry.take (.mutate place change) s).2.host t.host :=
                hhosts.changed place change
              rcases ih hrest hoffers.2 (changed_eq hsame change) hdetached hhosts' hjournals with
                ⟨⟨final, more⟩, hleft, hright, hbeside, hjournals'⟩
              rcases takeAll_cons htake hleft with ⟨hall, hsession⟩
              rw [List.filter_cons_of_neg (by simp [hmutation]), hsession]
              exact ⟨(final, more), hall, hright, hbeside, hjournals'⟩
          | _ => cases hmutation
      | false =>
          have hmutated := Step.changes_nothing hmutation d
          rw [hmutated.1, List.nil_append] at hrest
          have hhere : forall place, place ∈ step.places -> d place = d' place :=
            fun place hplace => hsame place (hplaces place hplace)
          rcases agree_take hdetached hmutation hoffers.1 hhere s t hhosts hjournals with
            ⟨hhosts', hjournals', hresult, hends⟩
          cases htake : (registry.take step s).1 with
          | error failure =>
              rw [htake] at hends
              exact hends.elim
          | ok outcome =>
              rcases outcome with ⟨registry', answers⟩
              rw [htake] at hends hresult
              rcases ih hrest hoffers.2 hsame hends hhosts' hjournals' with
                ⟨⟨final, more⟩, hleft, hright, hbeside, hjournals''⟩
              rcases takeAll_cons htake hleft with ⟨hall, hsession⟩
              rcases takeAll_cons hresult.symm hright with ⟨hall', hsession'⟩
              rw [List.filter_cons_of_pos (by simp [hmutation]), hsession, hsession',
                describeAll, List.foldl_cons, hmutated.2]
              exact ⟨(final, answers ++ more), hall, hall', hbeside, hjournals''⟩

theorem validateOptions_current (described : σ -> Value) (values : Value) (s : Session σ) :
    Candidate.validateOptions described values none s =
      ((do
        let schema ← Descriptor.optionsOf (described s.host)
        let r ← Options.given values schema
        Options.validate r schema), s) := by
  unfold Candidate.validateOptions
  rw [bind_apply, get_apply, next_ok]
  dsimp only
  rw [bind_apply, settle_apply]
  cases Descriptor.optionsOf (described s.host) with
  | error failure => rfl
  | ok schema =>
      rw [next_ok, bind_apply, settle_apply]
      change next _ _ = (Options.given values schema >>= fun r => Options.validate r schema, s)
      cases Options.given values schema with
      | error failure => rfl
      | ok r => rfl

theorem validate_current (b : Base ρ) (values : Value) (s : Session (Shelf ρ)) :
    (b.validate values none s).1 = (do
      let schema ← Descriptor.optionsOf (s.host.descriptions b.place)
      let r ← Options.given values schema
      Options.validate r schema
      (b.further values none s).1) := by
  unfold Base.validate
  rw [bind_apply, validateOptions_current]
  change (next _ ((do
    let schema ← Descriptor.optionsOf (s.host.descriptions b.place)
    let r ← Options.given values schema
    Options.validate r schema), s)).1 = _
  cases Descriptor.optionsOf (s.host.descriptions b.place) with
  | error failure => rfl
  | ok schema =>
      change (next _ (Options.given values schema >>= fun r => Options.validate r schema, s)).1 =
        (Options.given values schema >>= fun r => do
          Options.validate r schema
          (b.further values none s).1)
      cases Options.given values schema with
      | error failure => rfl
      | ok r =>
          change (next _ (Options.validate r schema, s)).1 = (do
            Options.validate r schema
            (b.further values none s).1)
          cases Options.validate r schema with
          | error failure => rfl
          | ok _ => rfl

/-- Whatever becomes of descriptions that are registered already, the registry answers each
step as if it had not, and so does every command that was made of a self-contained offer.  A
candidate with the standard validation goes by its description as it is in the end, and then by
its further checks. -/
theorem mutations_unseen (steps : List (Step ρ)) (hsteps : RegistersUnchanged [] steps)
    (hoffers : forall offer, offer ∈ steps.flatMap Step.offers -> offer.IsSelfContained)
    (s : Session (Shelf ρ)) :
    let unchanged := steps.filter fun step => !step.isMutation
    let final := (empty.takeAll steps s).2
    (exists outcome, (empty.takeAll steps s).1 = .ok outcome ∧
      (empty.takeAll unchanged s).1 = .ok outcome) ∧
    (forall (offer : Offer ρ) host command, offer.IsSelfContained ->
      offer.candidate.toCommand host = .ok command ->
        forall options, (command.validate options final).1 =
          (command.validate options (empty.takeAll unchanged s).2).1) ∧
    forall (b : Base ρ) values, (b.validate values none final).1 = (do
      let schema ← Descriptor.optionsOf (describeAll s.host.descriptions steps b.place)
      let r ← Options.given values schema
      Options.validate r schema
      (b.further values none final).1) := by
  intro unchanged final
  have hempty : (empty : Registry (Shelf ρ)).IsDetached := by
    intro command hnone
    cases hnone
  rcases takeAll_beside hsteps hoffers (fun _ _ => rfl) hempty ⟨rfl, rfl, rfl⟩ rfl with
    ⟨outcome, hleft, hright, hbeside, hjournals⟩
  refine ⟨⟨outcome, hleft, hright⟩, ?_, ?_⟩
  · intro offer host command hoffer hcommand options
    have hagree := (hoffer.isDetached hcommand).validate options _ _ _ _ hbeside hjournals
    exact hagree.2.2.1
  · intro b values
    rw [validate_current, hbeside.left]

/-! ## Descriptions that lose a rule -/

namespace Limited

def description (displayName : String) (rules : List OptionRule) : Value :=
  .ofFields [("name", .text "report:run"), ("displayName", .text displayName),
    ("description", .text ""), ("category", .text "General"), ("riskLevel", .text "low"),
    ("options", .list [
      .ofFields [("key", .text "limit"), ("label", .text "Limit"), ("kind", .text "text"),
        ("rules", .list (rules.map OptionRule.toValue))],
      .ofFields [("key", .text "title"), ("label", .text "Title"), ("kind", .text "choice"),
        ("resolveChoices", .supplier "titles")]])]

def atMostTen : OptionRule :=
  ⟨.max, some (.number 10)⟩

def session : Session (Shelf Unit) :=
  ⟨⟨fun _ => description "Run Report" [atMostTen], ()⟩, []⟩

def values : Value :=
  .ofFields [("limit", .text "50000")]

def report : Base Unit where
  place := 0
  further := fun _ _ => pure ()
  execute := fun _ _ => pure (some (.success "done"))
  supply := fun _ => pure [.text "Weekly"]

theorem report_isSelfContained : report.offer.IsSelfContained :=
  Base.isSelfContained (fun _ _ _ _ => Agree.pure trivial) (fun _ _ _ => Agree.pure trivial)

/-- The report with a validation that does not pass the schema on. -/
def schemaless : Offer Unit where
  candidate := { report.offer.candidate with
    validate := some fun values _ => report.validate values none }
  places := [0]

/-- The report with its own name to choose from. -/
def selfNamed : Base Unit :=
  { report with supply := fun _ => do
      let session ← get
      return [Fields.own (session.host.descriptions 0).fields "displayName"] }

def closed : Failure :=
  .fault .general "no reports today"

/-- The report with a further check, which nothing passes. -/
def refusing : Base Unit :=
  { report with further := fun _ _ => throw closed }

/-- A report is registered, then it loses the rule and changes its name, and then the registry is
asked. -/
def steps (offer : Offer Unit) : List (Step Unit) :=
  [.register offer, .mutate 0 fun _ => description "Report" [],
    .view (.validate "report:run" values), .view .toConfig]

end Limited

/-- Why options that were validated are refused, if they are. -/
def Answer.refusal? : Answer ρ -> Option (Option Failure)
  | .validated (some (.error failure)) => some (some failure)
  | .validated (some (.ok _)) => some none
  | _ => none

def Answer.choices? : Answer ρ -> Option (List (Option (List Value)))
  | .config (.ok entries) =>
      some (entries.flatMap fun entry => entry.options.map CatalogOption.choices)
  | _ => none

open Limited in
/-- The registered command keeps the rule, which the candidate has lost. -/
theorem mutations_unseen_limit :
    exists outcome, (empty.takeAll (steps report.offer) session).1 = .ok outcome ∧
      (empty.takeAll ((steps report.offer).filter fun step => !step.isMutation) session).1 =
        .ok outcome ∧
      outcome.2.filterMap Answer.refusal? =
        [some (.validation (.ruleViolation "limit" atMostTen))] ∧
      (report.validate values none (empty.takeAll (steps report.offer) session).2).1 = .ok () := by
  have hsteps : RegistersUnchanged [] (steps report.offer) := by
    simp [RegistersUnchanged, steps, Step.places, Step.offers]
  have hoffers : forall offer, offer ∈ (steps report.offer).flatMap Step.offers ->
      offer.IsSelfContained := by
    intro offer hoffer
    rw [List.mem_singleton.mp hoffer]
    exact report_isSelfContained
  have hrefused : (empty.takeAll (steps report.offer) session).1.toOption.map
      (fun outcome => outcome.2.filterMap Answer.refusal?) =
        some [some (.validation (.ruleViolation "limit" atMostTen))] := by
    decide +kernel
  rcases mutations_unseen (steps report.offer) hsteps hoffers session with
    ⟨⟨outcome, hleft, hright⟩, _, hown⟩
  rw [hleft] at hrefused
  refine ⟨outcome, hleft, hright, Option.some.inj hrefused, ?_⟩
  rw [hown report values]
  rfl

open Limited in
/-- A candidate that drops the schema is refused and accepted with its description, a supplier that
reads the description follows it, and a further check refuses what the schema accepts. -/
theorem mutations_seen :
    let answers := fun steps : List (Step Unit) =>
      ((empty.takeAll steps session).1.toOption.map Prod.snd).getD []
    let unchanged := fun offer => (steps offer).filter fun step => !step.isMutation
    ((answers (steps schemaless)).filterMap Answer.refusal? = [none] ∧
      (answers (unchanged schemaless)).filterMap Answer.refusal? =
        [some (.validation (.ruleViolation "limit" atMostTen))]) ∧
    ((answers (steps selfNamed.offer)).filterMap Answer.choices? =
        [[none, some [.text "Report"]]] ∧
      (answers (unchanged selfNamed.offer)).filterMap Answer.choices? =
        [[none, some [.text "Run Report"]]]) ∧
    ((report.validate (.ofFields []) none session).1 = .ok () ∧
      (refusing.validate (.ofFields []) none session).1 = .error closed) := by
  decide +kernel

end Registry

end OperatorConsole
