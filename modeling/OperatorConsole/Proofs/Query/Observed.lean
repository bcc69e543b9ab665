import OperatorConsole.Proofs.Action.Reported
import OperatorConsole.Proofs.Query.Faults

/-!
# Observed evaluations

An evaluation meets the outside where it looks at the clock and where it asks the source.  On an
observed host it notes each of these calls, with the failure that the call ended with if it
failed.

## Failures

A failure of an evaluation is raised by one of its calls to the outside, or the chain itself is
at fault.  `Chain.Finds` says what can be wrong with a chain apart from a document that cannot
be written.
-/

namespace OperatorConsole

namespace Query

open OperatorConsole.Action Value

/-! ## Calls to the outside -/

inductive OutsideCall where
  | timed (failure? : Option Failure)
  | asked (question : Question) (failure? : Option Failure)
  deriving DecidableEq, Repr

def failureOf? : Except Failure α -> Option Failure
  | .ok _ => none
  | .error failure => some failure

namespace OutsideCall

def failure? : OutsideCall -> Option Failure
  | .timed failure? => failure?
  | .asked _ failure? => failure?

def isTimed : OutsideCall -> Bool
  | .timed _ => true
  | .asked _ _ => false

/-- Whether one of some calls ended with a failure. -/
def Raised (calls : List OutsideCall) (failure : Failure) : Prop :=
  exists call, call ∈ calls ∧ call.failure? = some failure

def Unasked (calls : List OutsideCall) : Prop :=
  forall call, call ∈ calls -> call.isTimed = true

/-- Whether a source is asked just these questions, up to the first one that it fails at. -/
inductive Answers : List Question -> List OutsideCall -> Prop where
  | done : Answers [] []
  | failed {question rest failure} : Answers (question :: rest) [.asked question (some failure)]
  | answered {question rest calls} (hrest : Answers rest calls) :
      Answers (question :: rest) (.asked question none :: calls)

theorem Raised.left {calls : List OutsideCall} {failure : Failure} (hraised : Raised calls failure)
    (more : List OutsideCall) : Raised (calls ++ more) failure := by
  rcases hraised with ⟨call, hcall, hfailure⟩
  exact ⟨call, List.mem_append_left more hcall, hfailure⟩

theorem Raised.right {calls : List OutsideCall} {failure : Failure}
    (hraised : Raised calls failure) (before : List OutsideCall) :
    Raised (before ++ calls) failure := by
  rcases hraised with ⟨call, hcall, hfailure⟩
  exact ⟨call, List.mem_append_right before hcall, hfailure⟩

theorem unasked_nil : Unasked [] := by
  intro call hcall
  cases hcall

theorem Unasked.append {calls more : List OutsideCall} (hcalls : Unasked calls)
    (hmore : Unasked more) : Unasked (calls ++ more) := by
  intro call hcall
  rcases List.mem_append.mp hcall with hmem | hmem
  · exact hcalls call hmem
  · exact hmore call hmem

end OutsideCall

open OutsideCall

def observedClock (clock : Action σ Number) : Action (Watched σ OutsideCall) Number :=
  observe (fun outcome => .timed (failureOf? outcome)) clock

def EntitySource.observed (source : EntitySource σ) :
    EntitySource (Watched σ OutsideCall) where
  name := source.name
  primaryKey := source.primaryKey
  fields := watch source.fields
  select := fun plan =>
    observe (fun outcome => .asked (.select plan) (failureOf? outcome)) (source.select plan)
  iterate := fun plan =>
    observe (fun outcome => .asked (.iterate plan) (failureOf? outcome)) (source.iterate plan)
  aggregate := fun plan fn column =>
    observe (fun outcome => .asked (.aggregate plan fn column) (failureOf? outcome))
      (source.aggregate plan fn column)

structure Supplies (rows : Row -> Prop) (times : Number -> Prop) (source : EntitySource σ)
    (clock : Action σ Number) : Prop where
  select : forall plan s answer, (source.select plan s).1 = .ok answer ->
    forall row, row ∈ answer -> rows row
  iterate : forall plan s answer, (source.iterate plan s).1 = .ok answer ->
    forall row, row ∈ answer -> rows row
  clock : forall s time, (clock s).1 = .ok time -> times time

/-! ## Verbs by their names -/

theorem findVerb?_congr {all : List α} {text : α -> String} {name other : String}
    (hnames : Text.lower name.toList = Text.lower other.toList) :
    findVerb? all text name = findVerb? all text other := by
  unfold findVerb?
  rw [hnames]

theorem findVerb?_isSome {all : List α} {text : α -> String} {name : String} :
    (findVerb? all text name).isSome ↔
      exists v, v ∈ all ∧ Text.lower (text v).toList = Text.lower name.toList := by
  unfold findVerb?
  simp

theorem canonicalVerb?_isSome {name : String} :
    (canonicalVerb? name).isSome ↔ (BuilderVerb.ofName? name).isSome ∨
      (TerminalVerb.ofName? name).isSome ∨ (ResultVerb.ofName? name).isSome := by
  unfold canonicalVerb? BuilderVerb.ofName? TerminalVerb.ofName? ResultVerb.ofName?
  rw [findVerb?_isSome, findVerb?_isSome, findVerb?_isSome, findVerb?_isSome]
  unfold verbTexts
  simp only [List.mem_append, List.mem_map, id]
  constructor
  · rintro ⟨text, (⟨b, hb, rfl⟩ | ⟨t, ht, rfl⟩) | ⟨r, hr, rfl⟩, hname⟩
    · exact Or.inl ⟨b, hb, hname⟩
    · exact Or.inr (Or.inl ⟨t, ht, hname⟩)
    · exact Or.inr (Or.inr ⟨r, hr, hname⟩)
  · rintro (⟨b, hb, hname⟩ | ⟨t, ht, hname⟩ | ⟨r, hr, hname⟩)
    · exact ⟨b.text, Or.inl (Or.inl ⟨b, hb, rfl⟩), hname⟩
    · exact ⟨t.text, Or.inl (Or.inr ⟨t, ht, rfl⟩), hname⟩
    · exact ⟨r.text, Or.inr ⟨r, hr, rfl⟩, hname⟩

theorem canonicalVerb?_mem {name canonical : String}
    (hcanonical : canonicalVerb? name = some canonical) : canonical ∈ verbTexts := by
  unfold canonicalVerb? findVerb? at hcanonical
  exact List.mem_of_find?_eq_some hcanonical

theorem BuilderVerb.ofName?_of_terminal {name : String} {verb : TerminalVerb}
    (hverb : TerminalVerb.ofName? name = some verb) : BuilderVerb.ofName? name = none := by
  have hdistinct : forall b, b ∈ BuilderVerb.all -> forall t, t ∈ TerminalVerb.all ->
      Text.lower b.text.toList ≠ Text.lower t.text.toList := by
    decide +kernel
  unfold TerminalVerb.ofName? findVerb? at hverb
  unfold BuilderVerb.ofName? findVerb?
  have hmem := List.mem_of_find?_eq_some hverb
  have hname : Text.lower verb.text.toList = Text.lower name.toList := by
    simpa using List.find?_some hverb
  refine List.find?_eq_none.mpr ?_
  intro b hb hsame
  exact hdistinct b hb verb hmem ((eq_of_beq hsame).trans hname.symm)

theorem BuilderVerb.text_mem (verb : BuilderVerb) : verb.text ∈ verbTexts := by
  cases verb <;> decide

theorem TerminalVerb.text_mem (verb : TerminalVerb) : verb.text ∈ verbTexts := by
  cases verb <;> decide

theorem ResultVerb.text_mem (verb : ResultVerb) : verb.text ∈ verbTexts := by
  cases verb <;> decide

/-! ## Findings -/

/-- A fault other than an unknown method, about a verb of the language if it is about one. -/
def EvaluationFault.IsKnown (fault : EvaluationFault) : Prop :=
  (forall verb, fault ≠ .unknownMethod verb) ∧
    forall verb, fault.about? = some verb -> verb ∈ verbTexts

theorem EvaluationFault.isKnown_of_about {fault : EvaluationFault} {verb : String}
    (habout : fault.about? = some verb) (hverb : verb ∈ verbTexts) : fault.IsKnown := by
  constructor
  · rintro name rfl
    cases habout
  · intro other hother
    rw [habout] at hother
    cases hother
    exact hverb

theorem EvaluationFault.isKnown_of_none {fault : EvaluationFault}
    (hunknown : forall verb, fault ≠ .unknownMethod verb) (habout : fault.about? = none) :
    fault.IsKnown := by
  refine ⟨hunknown, ?_⟩
  intro verb hverb
  rw [habout] at hverb
  cases hverb

/-- What can be wrong with a chain, given what rows and what times it is supplied with. -/
inductive Chain.Finds (rows : Row -> Prop) (times : Number -> Prop) (chain : Chain) :
    Failure -> Prop where
  | unknown {call : Call} (hcall : call ∈ chain) (hverb : canonicalVerb? call.verb = none) :
      Finds rows times chain (EvaluationFault.unknownMethod call.verb).toFailure
  | fault {fault : EvaluationFault} (hknown : fault.IsKnown) :
      Finds rows times chain fault.toFailure
  | time {h : Helper} {time failure} (hgiven : times time)
      (htext : h.textAt time = .error failure) : Finds rows times chain failure
  | key {row : Row} {name failure} (hgiven : rows row)
      (htext : Failure.textOf (Record.get row name) = .error failure) :
      Finds rows times chain failure

variable {rows : Row -> Prop} {times : Number -> Prop}

theorem Chain.Finds.subset {chain chain' : Chain} {failure : Failure}
    (hfinds : chain.Finds rows times failure) (hsubset : chain ⊆ chain') :
    chain'.Finds rows times failure := by
  cases hfinds with
  | unknown hcall hverb => exact .unknown (hsubset hcall) hverb
  | fault hknown => exact .fault hknown
  | time hgiven htext => exact .time hgiven htext
  | key hgiven htext => exact .key hgiven htext

theorem Blames.finds {chain : Chain} {verb : String} {checked : Checked α}
    (hblames : Blames verb checked) (hverb : verb ∈ verbTexts) {fault : EvaluationFault}
    (hfault : checked = .error fault) : chain.Finds rows times fault.toFailure :=
  .fault (EvaluationFault.isKnown_of_about (hblames fault hfault) hverb)

/-! ## Conclusions -/

def Inquiry.Concludes (rows : Row -> Prop) (good : Value -> Prop) (bad : Failure -> Prop) :
    Inquiry -> Prop
  | .select _ conclude => forall answer, (forall row, row ∈ answer -> rows row) ->
      Ends good bad (conclude answer)
  | .iterate _ conclude => forall answer, (forall row, row ∈ answer -> rows row) ->
      Ends good bad (conclude answer)
  | .aggregate _ _ _ conclude => forall answer, Ends good bad (conclude answer)
  | .page _ _ conclude => forall total answer, (forall row, row ∈ answer -> rows row) ->
      Ends good bad (conclude total answer)

abbrev Inquiry.Fails (rows : Row -> Prop) (bad : Failure -> Prop) : Inquiry -> Prop :=
  Inquiry.Concludes rows (fun _ => True) bad

namespace TerminalVerb

variable {chain : Chain}

theorem ends_found (required : Bool) (entity key : String) (id : Scalar) (row : Option Row) :
    Ends (fun _ => True) (chain.Finds rows times) (found required entity key id row) := by
  unfold found
  split
  · exact .fault (EvaluationFault.isKnown_of_none nofun rfl)
  · exact trivial

theorem ends_only (answer : List Row) :
    Ends (fun _ => True) (chain.Finds rows times) (only answer) := by
  unfold only
  split
  · exact .fault (EvaluationFault.isKnown_of_none nofun rfl)
  · exact trivial
  · exact .fault (EvaluationFault.isKnown_of_none nofun rfl)

theorem ends_keyed (valueColumn keyColumn : String) {answer : List Row}
    (hanswer : forall row, row ∈ answer -> rows row) :
    Ends (fun _ => True) (chain.Finds rows times)
      ((keyedRecord valueColumn keyColumn answer).map Record.toValue) := by
  have hrecord : Ends (fun _ => True) (chain.Finds rows times)
      (keyedRecord valueColumn keyColumn answer) := by
    refine Ends.foldlM ?_ Record.empty trivial
    intro record _ row hrow
    cases hkey : Failure.textOf (Record.get row keyColumn) with
    | ok key => exact trivial
    | error failure => exact .key (hanswer row hrow) hkey
  cases hkeyed : keyedRecord valueColumn keyColumn answer with
  | ok record => exact trivial
  | error failure =>
      rw [hkeyed] at hrecord
      exact hrecord

/-- What an inquiry concludes fails only at a record that is missing, at one that is not the only
one, or at a key without a text. -/
theorem inquiry_fails (verb : TerminalVerb) (entity key : String) (plan : Plan)
    (args : List Operand) :
    Yields (Inquiry.Fails rows (chain.Finds rows times)) (verb.inquiry entity key plan args) := by
  have hfind : forall required verb,
      Yields (Inquiry.Fails rows (chain.Finds rows times))
        (askFind required verb entity key plan args) := by
    intro required verb
    refine Yields.behind fun _ => Yields.behind fun id => ?_
    exact Yields.ok fun answer _ => ends_found required entity key id _
  have haggregate : forall fn verb,
      Yields (Inquiry.Fails rows (chain.Finds rows times)) (askAggregate fn verb plan args) :=
    fun fn verb => Yields.behind fun _ => Yields.behind fun _ =>
      Yields.ok fun _ => trivial
  have hexists : forall wanted verb,
      Yields (Inquiry.Fails rows (chain.Finds rows times)) (askExists wanted verb plan args) :=
    fun wanted verb => Yields.behind fun _ => Yields.ok fun _ => trivial
  cases verb with
  | get => exact Yields.behind fun _ => Yields.ok fun _ _ => trivial
  | first => exact Yields.behind fun _ => Yields.ok fun _ _ => trivial
  | find => exact hfind _ _
  | findOrFail => exact hfind _ _
  | sole => exact Yields.behind fun _ => Yields.ok fun answer _ => ends_only answer
  | pluck =>
      refine Yields.behind fun _ => Yields.behind fun valueColumn => ?_
      split
      · refine Yields.behind fun keyColumn => ?_
        exact Yields.ok fun answer hanswer => ends_keyed valueColumn keyColumn hanswer
      · exact Yields.ok fun _ _ => trivial
  | value =>
      exact Yields.behind fun _ => Yields.behind fun _ =>
        Yields.ok fun _ _ => trivial
  | count => exact Yields.behind fun _ => Yields.ok fun _ => trivial
  | min => exact haggregate _ _
  | max => exact haggregate _ _
  | avg => exact haggregate _ _
  | sum =>
      exact Yields.behind fun _ => Yields.behind fun _ =>
        Yields.ok fun _ => trivial
  | «exists» => exact hexists _ _
  | doesntExist => exact hexists _ _
  | paginate => exact Yields.behind fun _ => Yields.ok fun _ _ _ => trivial
  | simplePaginate => exact Yields.behind fun _ => Yields.ok fun _ _ => trivial
  | lazy => exact Yields.behind fun _ => Yields.ok fun _ _ => trivial

end TerminalVerb

end Query

end OperatorConsole
