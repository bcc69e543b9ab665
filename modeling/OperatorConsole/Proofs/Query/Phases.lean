import OperatorConsole.Proofs.Query.Provenance

/-!
# Phases of an evaluation

Over rows of scalars and with a clock that gives valid times, the course of an evaluation leaves
only one way to fail that is neither the outside's nor a fault that is reported as such: a
document is to be written of a record that answers for it with an inherited routine.
-/

namespace OperatorConsole

namespace Query

open OperatorConsole.Action Value OutsideCall

def IsValidTime (time : Number) : Prop :=
  (Calendar.milliseconds? time).isSome

instance : DecidablePred IsValidTime := fun time =>
  inferInstanceAs (Decidable ((Calendar.milliseconds? time).isSome = true))

theorem textAt_valid (h : Helper) {time : Number} (htime : IsValidTime time) :
    exists text, h.textAt time = .ok text := by
  rcases Option.isSome_iff_exists.mp htime with ⟨ms, hms⟩
  cases h with
  | _ =>
      unfold Helper.textAt Calendar.leadingText
      rw [hms]
      exact ⟨_, rfl⟩

/-- A value without exact integers has a document unless it is a record that answers for itself
with a routine, and the routine fails. -/
theorem jsonOf_error {v : Value} (hv : Inexact v) {failure : Failure}
    (hjson : jsonOf v = .error failure) :
    exists fields base routine, v = .record fields base ∧
      stored? Json.standInKey v = some (.routine routine) ∧
      Json.answerOf routine ⟨fields, base⟩ = .error failure := by
  have hshown := ends_standIn hv
  unfold jsonOf at hjson
  cases hstandIn : Json.standIn v with
  | ok shown =>
      rw [hstandIn] at hshown hjson
      change (if Json.isWritable shown then _ else _) = _ at hjson
      rw [if_pos hshown.writable] at hjson
      split at hjson
      · cases hjson
      · cases hjson
  | error failure' =>
      rw [hstandIn] at hjson
      cases hjson
      unfold Json.standIn at hstandIn
      split at hstandIn
      · split at hstandIn
        · rename_i hstored
          exact ⟨_, _, _, rfl, hstored, hstandIn⟩
        · cases hstandIn
      · cases hstandIn

namespace Chain

variable {source : EntitySource σ} {clock : Action σ Number}

/-- Whether a chain comes to writing a document of a record which answers for it with a routine
that a column has inherited, and what the routine fails with. -/
def Balks (source : EntitySource σ) (clock : Action σ Number) (chain : Chain) (s : Session σ)
    (failure : Failure) : Prop :=
  exists (front : Chain) (call : Call) (back : Chain) (fields : Fields) (base : Value)
      (routine : String),
    chain = front ++ call :: back ∧ ResultVerb.ofName? call.verb = some .toJson ∧
    (front.evaluate source clock s).1 = .ok (.record fields base) ∧
    stored? Json.standInKey (.record fields base) = some (.routine routine) ∧
    Inherits front.Reads (.routine routine) ∧
    Json.answerOf routine ⟨fields, base⟩ = .error failure

theorem finds_or_balks (hsupplies : Supplies ScalarRow IsValidTime source clock) {chain : Chain}
    {s : Session σ} {failure : Failure}
    (hbad : chain.Finds ScalarRow IsValidTime failure ∨
      chain.Stumbles (fun front v => (front.evaluate source clock s).1 = .ok v) failure) :
    (exists reason, failure = .query (.evaluation reason)) ∨ chain.Balks source clock s failure := by
  rcases hbad with hfinds | ⟨front, call, back, w, hcalls, hfront, hverb, hjson⟩
  · cases hfinds with
    | unknown => exact Or.inl ⟨_, rfl⟩
    | fault => exact Or.inl ⟨_, rfl⟩
    | @time h time _ hgiven htext =>
        rcases textAt_valid h hgiven with ⟨text, hvalid⟩
        rw [hvalid] at htext
        cases htext
    | @key row name _ hgiven htext =>
        rcases textOf_get hgiven name with ⟨text, hwords⟩
        rw [hwords] at htext
        cases htext
  · have hcomposed := evaluate_composed hsupplies hfront
    rcases jsonOf_error hcomposed.inexact hjson with ⟨fields, base, routine, rfl, hstored, hanswer⟩
    have hinherits := (composed_stored hcomposed hstored).parts
    exact Or.inr ⟨front, call, back, fields, base, routine, hcalls, hverb, hfront, hstored,
      hinherits, hanswer⟩

theorem Course.phases {chain : Chain} {s : Session σ} {bad : Failure -> Prop}
    {told : List OutsideCall} {result : Except Failure Value} {value : Value}
    (hcourse : Course source clock chain s bad told result) (hvalue : result = .ok value) :
    exists builders terminal verb results, chain.Splits builders terminal verb results ∧
      forall call, call ∈ results -> (ResultVerb.ofName? call.verb).isSome := by
  cases hcourse with
  | unasked => cases hvalue
  | asked hsplits _ _ _ _ _ _ _ hresults _ =>
      exact ⟨_, _, _, _, hsplits, hresults value hvalue⟩

/-- The three phases of an evaluation.  A value is given only by builder verbs, one terminal verb
and result verbs, in this order.  The source is asked the questions of the terminal verb and
nothing else, and nothing at all if an earlier call fails or the operands of the verb are refused.
A failure is raised by the clock or the source, or it is a fault of evaluation, unless the chain
balks. -/
theorem evaluate_in_phases (hsupplies : Supplies ScalarRow IsValidTime source clock)
    (chain : Chain) (s : Session σ) :
    let run := chain.evaluate source.observed (observedClock clock) s.watched
    chain.evaluate source clock s = (run.1, run.2.forget) ∧
      (forall value, run.1 = .ok value ->
        exists builders terminal verb results, chain.Splits builders terminal verb results ∧
          forall call, call ∈ results -> (ResultVerb.ofName? call.verb).isSome) ∧
      chain.Course source clock s
        (fun failure => (exists reason, failure = .query (.evaluation reason)) ∨
          chain.Balks source clock s failure)
        run.2.host.events run.1 := by
  rcases evaluate_course hsupplies chain s with ⟨hsame, hcourse⟩
  refine ⟨hsame, fun value hvalue => hcourse.phases hvalue, hcourse.mono ?_⟩
  exact fun failure hbad => finds_or_balks hsupplies hbad

theorem evaluate_in_phases_single :
    ((Chain.evaluate (singleRowSource [("k", .text "a")]).observed (observedClock (pure 0))
        [⟨"where", [.scalar (.text "at"), .helper .today], 0⟩,
          ⟨"pluck", [.scalar (.text "k")], 21⟩, ⟨"first", [], 33⟩]
        (Session.watched ⟨(), []⟩)).1 = .ok (.text "a")) ∧
      exists builders terminal verb results,
        Chain.Splits [⟨"where", [.scalar (.text "at"), .helper .today], 0⟩,
          ⟨"pluck", [.scalar (.text "k")], 21⟩, ⟨"first", [], 33⟩]
          builders terminal verb results := by
  have hvalue : (Chain.evaluate (singleRowSource [("k", .text "a")]).observed
      (observedClock (pure 0)) [⟨"where", [.scalar (.text "at"), .helper .today], 0⟩,
        ⟨"pluck", [.scalar (.text "k")], 21⟩, ⟨"first", [], 33⟩]
      (Session.watched ⟨(), []⟩)).1 = .ok (.text "a") := by
    decide +kernel
  have hsupplies : Supplies ScalarRow IsValidTime (singleRowSource [("k", .text "a")]) (pure 0) :=
    singleRowSource_supplies (by simp [Value.scalar?]) (by decide +kernel)
  rcases (evaluate_in_phases hsupplies _ _).2.1 _ hvalue with
    ⟨builders, terminal, verb, results, hsplits, _⟩
  exact ⟨hvalue, builders, terminal, verb, results, hsplits⟩

/-- A chain that balks: its failure is raised by nothing outside, and it is no fault of
evaluation. -/
theorem failure_of_balking :
    let source := singleRowSource [("k", .text "toJSON")]
    let run := Chain.evaluate source.observed (observedClock (pure 0))
      [⟨"pluck", [.scalar (.text "__defineGetter__"), .scalar (.text "k")], 0⟩, ⟨"toJson", [], 32⟩]
      (Session.watched ⟨(), []⟩)
    Supplies ScalarRow IsValidTime source (pure 0 : Action Unit Number) ∧
      run.1 = .error (Json.expectsFunction "__defineGetter__") ∧
      ¬ Raised run.2.host.events (Json.expectsFunction "__defineGetter__") ∧
      forall reason, Json.expectsFunction "__defineGetter__" ≠ .query (.evaluation reason) := by
  intro source run
  have hrun : run.1 = .error (Json.expectsFunction "__defineGetter__") := by
    decide +kernel
  have hevents : (run.2.host.events.all fun call => call.failure?.isNone) = true := by
    decide +kernel
  have hsupplies : Supplies ScalarRow IsValidTime source (pure 0 : Action Unit Number) :=
    singleRowSource_supplies (by simp [Value.scalar?]) (by decide +kernel)
  refine ⟨hsupplies, hrun, ?_, ?_⟩
  · rintro ⟨call, hcall, hfailure⟩
    have hnone := List.all_eq_true.mp hevents call hcall
    rw [hfailure] at hnone
    cases hnone
  · intro reason hreason
    cases hreason

end Chain

end Query

end OperatorConsole
