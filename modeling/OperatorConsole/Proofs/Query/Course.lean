import OperatorConsole.Proofs.Query.Observed

/-!
# The course of an evaluation

An evaluation looks at the clock while it prepares an inquiry, asks the questions of that
inquiry, and looks at the clock again while it applies the calls that are left.  `Course` says
so of the calls to the outside, and says where a failure comes from.

A chain that gives a value has three phases: builder verbs, one terminal verb, result verbs.
-/

namespace OperatorConsole

namespace Query

open OperatorConsole.Action Value OutsideCall

variable {rows : Row -> Prop} {times : Number -> Prop} {source : EntitySource σ}
  {clock : Action σ Number}

/-! ## Without the source -/

/-- What is reported of a part of an evaluation that has no source to ask.  A failure is raised by
the clock or else as told. -/
def Quiet (good : α -> Prop) (bad : Failure -> Prop) (told : List OutsideCall)
    (result : Except Failure α) : Prop :=
  Unasked told ∧ Ends good (fun failure => Raised told failure ∨ bad failure) result

variable {good : α -> Prop} {bad : Failure -> Prop}

theorem quiet_ok {x : α} (hx : good x) : Quiet good bad [] (.ok x) :=
  ⟨unasked_nil, hx⟩

theorem quiet_error {failure : Failure} (hbad : bad failure) :
    Quiet good bad [] (.error failure) :=
  ⟨unasked_nil, Or.inr hbad⟩

theorem Quiet.append {told more : List OutsideCall} {result : Except Failure α}
    (htold : Unasked told) (hquiet : Quiet good bad more result) :
    Quiet good bad (told ++ more) result := by
  refine ⟨htold.append hquiet.1, hquiet.2.mono (fun _ hx => hx) ?_⟩
  rintro failure (hraised | hbad)
  · exact Or.inl (hraised.right told)
  · exact Or.inr hbad

theorem quiet_bind {middle : β -> Prop} {a : Action (Watched σ OutsideCall) β} {b : Action σ β}
    {step : β -> Action (Watched σ OutsideCall) α} {step' : β -> Action σ α}
    (hfirst : Reports (Quiet middle bad) a b)
    (hstep : forall x, middle x -> Reports (Quiet good bad) (step x) (step' x)) :
    Reports (Quiet good bad) (a >>= step) (b >>= step') := by
  refine hfirst.bind ?_ fun told failure hquiet => hquiet
  rintro told x ⟨htold, hx⟩
  exact (hstep x hx).mono fun more result hmore => hmore.append htold

theorem quiet_checked {verb : String} {checked : Checked α} (hblames : Blames verb checked)
    (hverb : verb ∈ verbTexts) (chain : Chain) :
    Reports (Quiet (fun x => checked = .ok x) (chain.Finds rows times))
      (checked.run : Action (Watched σ OutsideCall) α) checked.run := by
  cases checked with
  | ok x => exact Reports.pure (quiet_ok rfl)
  | error fault => exact Reports.throw (quiet_error (hblames.finds hverb rfl))

/-! ## Operands -/

theorem quiet_clock (hclock : forall s time, (clock s).1 = .ok time -> times time) :
    Reports (Quiet times bad) (observedClock clock) clock := by
  refine Reports.observe ?_
  intro s
  refine ⟨?_, ?_⟩
  · intro call hcall
    rw [List.mem_singleton.mp hcall]
    rfl
  · cases hresult : (clock s).1 with
    | ok time => exact hclock s time hresult
    | error failure => exact Or.inl ⟨_, List.mem_cons_self, rfl⟩

mutual

theorem quiet_resolve (hclock : forall s time, (clock s).1 = .ok time -> times time)
    (chain : Chain) : (arg : Argument) ->
      Reports (Quiet (fun _ => True) (chain.Finds rows times))
        (Argument.resolve (observedClock clock) arg) (Argument.resolve clock arg)
  | .scalar v => by
      rw [Argument.resolve, Argument.resolve]
      exact Reports.pure (quiet_ok trivial)
  | .helper h => by
      rw [Argument.resolve, Argument.resolve]
      refine quiet_bind (quiet_clock hclock) fun time htime => ?_
      cases htext : h.textAt time with
      | ok text => exact Reports.pure (quiet_ok trivial)
      | error failure => exact Reports.throw (quiet_error (.time htime htext))
  | .list items => by
      rw [Argument.resolve, Argument.resolve]
      refine quiet_bind (quiet_resolveAll hclock chain items) fun operands _ => ?_
      exact Reports.pure (quiet_ok trivial)

theorem quiet_resolveAll (hclock : forall s time, (clock s).1 = .ok time -> times time)
    (chain : Chain) : (args : List Argument) ->
      Reports (Quiet (fun _ => True) (chain.Finds rows times))
        (Argument.resolveAll (observedClock clock) args) (Argument.resolveAll clock args)
  | [] => by
      rw [Argument.resolveAll, Argument.resolveAll]
      exact Reports.pure (quiet_ok trivial)
  | arg :: args => by
      rw [Argument.resolveAll, Argument.resolveAll]
      refine quiet_bind (quiet_resolve hclock chain arg) fun operand _ => ?_
      refine quiet_bind (quiet_resolveAll hclock chain args) fun operands _ => ?_
      exact Reports.pure (quiet_ok trivial)

end

/-! ## Phases of a chain -/

theorem Checked.run_ok {checked : Checked α} {x : α} {s : Session σ}
    (hrun : ((checked.run : Action σ α) s).1 = .ok x) : checked = .ok x := by
  cases checked with
  | ok y => rw [Except.ok.inj hrun]
  | error fault => cases hrun

namespace Chain

/-- The calls before the first terminal verb, that verb, and the calls behind it. -/
structure Splits (chain builders : Chain) (terminal : Call) (verb : TerminalVerb)
    (rest : Chain) : Prop where
  calls : chain = builders ++ terminal :: rest
  builders : forall call, call ∈ builders -> (BuilderVerb.ofName? call.verb).isSome
  terminal : TerminalVerb.ofName? terminal.verb = some verb

theorem prepareStep_ok {entity key : String} {call : Call} {plan : Plan} {s t : Session σ}
    {preparation : Preparation}
    (hstep : prepareStep entity key clock plan call s = (.ok preparation, t)) :
    exists args, (exists r, (Argument.resolveAll clock call.args r).1 = .ok args) ∧
      match preparation with
      | .building plan' => exists verb, BuilderVerb.ofName? call.verb = some verb ∧
          verb.apply args plan = .ok plan'
      | .asking inquiry => BuilderVerb.ofName? call.verb = none ∧
          exists verb, TerminalVerb.ofName? call.verb = some verb ∧
            verb.inquiry entity key plan args = .ok inquiry := by
  unfold prepareStep at hstep
  cases hcanonical : canonicalVerb? call.verb with
  | none =>
      rw [hcanonical] at hstep
      cases hstep
  | some canonical =>
      rw [hcanonical] at hstep
      dsimp only at hstep
      rcases bind_ok (congrArg Prod.fst hstep) with ⟨args, s', hargs, happlied⟩
      refine ⟨args, ⟨s, hargs⟩, ?_⟩
      cases hbuilder : BuilderVerb.ofName? call.verb with
      | some b =>
          rw [hbuilder] at happlied
          rcases bind_ok happlied with ⟨plan', _, hrun, hgiven⟩
          cases hgiven
          exact ⟨b, rfl, Checked.run_ok hrun⟩
      | none =>
          rw [hbuilder] at happlied
          cases hterminal : TerminalVerb.ofName? call.verb with
          | none =>
              rw [hterminal] at happlied
              cases happlied
          | some verb =>
              rw [hterminal] at happlied
              rcases bind_ok happlied with ⟨inquiry, _, hrun, hgiven⟩
              cases hgiven
              exact ⟨rfl, verb, rfl, Checked.run_ok hrun⟩

theorem prepare_cons_ok {entity key : String} {call : Call} {calls rest : Chain} {plan : Plan}
    {inquiry : Inquiry} {s t : Session σ}
    (hprepare : Chain.prepare entity key clock plan (call :: calls) s =
      (.ok (inquiry, rest), t)) :
    exists args, (exists r, (Argument.resolveAll clock call.args r).1 = .ok args) ∧
      ((exists builder plan' s', BuilderVerb.ofName? call.verb = some builder ∧
          builder.apply args plan = .ok plan' ∧
          prepareStep entity key clock plan call s = (.ok (.building plan'), s') ∧
          Chain.prepare entity key clock plan' calls s' = (.ok (inquiry, rest), t)) ∨
        (exists verb, BuilderVerb.ofName? call.verb = none ∧
          TerminalVerb.ofName? call.verb = some verb ∧
          verb.inquiry entity key plan args = .ok inquiry ∧
          prepareStep entity key clock plan call s = (.ok (.asking inquiry), t) ∧
          rest = calls)) := by
  rw [prepare, bind_apply] at hprepare
  cases hstep : prepareStep entity key clock plan call s with
  | mk result s' =>
      rw [hstep] at hprepare
      cases result with
      | error failure => cases hprepare
      | ok preparation =>
          rcases prepareStep_ok hstep with ⟨args, hargs, hcall⟩
          refine ⟨args, hargs, ?_⟩
          cases preparation with
          | building plan' =>
              rcases hcall with ⟨builder, hbuilder, happly⟩
              exact Or.inl ⟨builder, plan', s', hbuilder, happly, rfl, hprepare⟩
          | asking inquiry' =>
              cases hprepare
              rcases hcall with ⟨hnone, verb, hverb, hinquiry⟩
              exact Or.inr ⟨verb, hnone, hverb, hinquiry, rfl, rfl⟩

/-- An inquiry that has been prepared is that of the first terminal verb, and whatever stands
behind the verb has no part in it. -/
theorem prepare_ok {entity key : String} {chain rest : Chain} {plan : Plan} {inquiry : Inquiry}
    {s t : Session σ}
    (hprepare : chain.prepare entity key clock plan s = (.ok (inquiry, rest), t)) :
    exists builders terminal verb plan' args, chain.Splits builders terminal verb rest ∧
      (exists r, (Argument.resolveAll clock terminal.args r).1 = .ok args) ∧
      verb.inquiry entity key plan' args = .ok inquiry ∧
      forall other : Chain, Chain.prepare entity key clock plan (builders ++ terminal :: other) s =
        (.ok (inquiry, other), t) := by
  induction chain generalizing plan s with
  | nil => cases hprepare
  | cons call calls ih =>
      rcases prepare_cons_ok hprepare with
        ⟨args, hargs, ⟨builder, plan', s', hbuilder, _, hstep, hrest⟩ |
          ⟨verb, _, hterminal, hinquiry, hstep, rfl⟩⟩
      · rcases ih hrest with
          ⟨builders, terminal, verb, plan'', args', hsplits, hargs', hinquiry, hother⟩
        refine ⟨call :: builders, terminal, verb, plan'', args', ?_, hargs', hinquiry, ?_⟩
        · refine ⟨?_, ?_, hsplits.terminal⟩
          · rw [hsplits.calls, List.cons_append]
          · refine List.forall_mem_cons.mpr ⟨?_, hsplits.builders⟩
            rw [hbuilder]
            rfl
        · intro other
          rw [List.cons_append, prepare, bind_apply, hstep]
          exact hother other
      · have hsplits : Splits (call :: rest) [] call verb rest := by
          refine ⟨rfl, ?_, hterminal⟩
          intro builder hbuilder
          cases hbuilder
        refine ⟨[], call, verb, plan, args, hsplits, hargs, hinquiry, ?_⟩
        intro other
        rw [List.nil_append, prepare, bind_apply, hstep]
        rfl

/-! ## Preparing -/

section Preparing

variable {chain : Chain}

theorem quiet_prepareStep (entity key : String)
    (hclock : forall s time, (clock s).1 = .ok time -> times time)
    {call : Call} (hcall : call ∈ chain) (plan : Plan) :
    Reports
      (Quiet (fun preparation => forall inquiry, preparation = .asking inquiry ->
        inquiry.Fails rows (chain.Finds rows times)) (chain.Finds rows times))
      (prepareStep entity key (observedClock clock) plan call)
      (prepareStep entity key clock plan call) := by
  unfold prepareStep
  cases hcanonical : canonicalVerb? call.verb with
  | none => exact Reports.throw (quiet_error (.unknown hcall hcanonical))
  | some canonical =>
      refine quiet_bind (quiet_resolveAll hclock chain call.args) fun args _ => ?_
      cases BuilderVerb.ofName? call.verb with
      | some b =>
          refine quiet_bind (quiet_checked (b.apply_blames args plan) b.text_mem chain) ?_
          intro plan' _
          refine Reports.pure (quiet_ok ?_)
          intro inquiry hasking
          cases hasking
      | none =>
          cases TerminalVerb.ofName? call.verb with
          | none =>
              have hknown : (EvaluationFault.needsResult canonical).IsKnown :=
                EvaluationFault.isKnown_of_about rfl (canonicalVerb?_mem hcanonical)
              exact Reports.throw (quiet_error (.fault hknown))
          | some t =>
              refine quiet_bind
                (quiet_checked (t.inquiry_blames plan args entity key) t.text_mem chain) ?_
              intro inquiry hinquiry
              have hfails : Yields (Inquiry.Fails rows (chain.Finds rows times))
                  (t.inquiry entity key plan args) := t.inquiry_fails entity key plan args
              refine Reports.pure (quiet_ok ?_)
              intro inquiry' hasking
              cases hasking
              exact hfails inquiry hinquiry

theorem quiet_prepare (rows : Row -> Prop) (entity key : String)
    (hclock : forall s time, (clock s).1 = .ok time -> times time)
    {calls : Chain} (hcalls : calls ⊆ chain) (plan : Plan) :
    Reports
      (Quiet (fun prepared => prepared.1.Fails rows (chain.Finds rows times))
        (chain.Finds rows times))
      (calls.prepare entity key (observedClock clock) plan)
      (calls.prepare entity key clock plan) := by
  induction calls generalizing plan with
  | nil =>
      have hknown : EvaluationFault.neverRuns.IsKnown :=
        EvaluationFault.isKnown_of_none nofun rfl
      exact Reports.throw (quiet_error (.fault hknown))
  | cons call calls ih =>
      rw [prepare, prepare]
      refine quiet_bind (quiet_prepareStep entity key hclock (hcalls List.mem_cons_self) plan) ?_
      intro preparation hpreparation
      cases preparation with
      | building plan => exact ih (fun _ hmem => hcalls (List.mem_cons_of_mem call hmem)) plan
      | asking inquiry => exact Reports.pure (quiet_ok (hpreparation inquiry rfl))

end Preparing

end Chain

/-! ## Asking -/

def Asked (questions : List Question) (bad : Failure -> Prop) (told : List OutsideCall)
    (result : Except Failure α) : Prop :=
  Answers questions told ∧
    Ends (fun _ => True) (fun failure => Raised told failure ∨ bad failure) result

theorem asked_bind {question : Question} {questions : List Question} {middle : β -> Prop}
    {a : Action σ β} {step : β -> Action (Watched σ OutsideCall) α} {step' : β -> Action σ α}
    (hanswer : forall s x, (a s).1 = .ok x -> middle x)
    (hstep : forall x, middle x -> Reports (Asked questions bad) (step x) (step' x)) :
    Reports (Asked (question :: questions) bad)
      (observe (fun outcome => .asked question (failureOf? outcome)) a >>= step) (a >>= step') := by
  have hasked : Reports
      (fun told result => told = [.asked question (failureOf? result)] ∧
        forall x, result = .ok x -> middle x)
      (observe (fun outcome => OutsideCall.asked question (failureOf? outcome)) a) a :=
    Reports.observe fun s => ⟨rfl, hanswer s⟩
  refine hasked.bind ?_ ?_
  · rintro told x ⟨rfl, hx⟩
    refine (hstep x (hx x rfl)).mono ?_
    rintro more result ⟨hmore, hends⟩
    refine ⟨.answered hmore, hends.mono (fun _ h => h) ?_⟩
    rintro failure (hraised | hbad)
    · exact Or.inl (hraised.right _)
    · exact Or.inr hbad
  · rintro told failure ⟨rfl, _⟩
    exact ⟨.failed, Or.inl ⟨_, List.mem_cons_self, rfl⟩⟩

theorem asked_settle {result : Except Failure Value} (hends : Ends (fun _ => True) bad result) :
    Reports (Asked [] bad) (settle result : Action (Watched σ OutsideCall) Value)
      (settle result) :=
  Reports.settle ⟨.done, hends.mono (fun _ h => h) fun _ hbad => Or.inr hbad⟩

theorem asked_carryOut (hsupplies : Supplies rows times source clock) {inquiry : Inquiry}
    (hfails : inquiry.Fails rows bad) :
    Reports (Asked inquiry.questions bad) (inquiry.carryOut source.observed)
      (inquiry.carryOut source) := by
  cases inquiry with
  | select plan conclude =>
      refine asked_bind (hsupplies.select plan) fun answer hanswer => ?_
      exact asked_settle (hfails answer hanswer)
  | iterate plan conclude =>
      refine asked_bind (hsupplies.iterate plan) fun answer hanswer => ?_
      exact asked_settle (hfails answer hanswer)
  | aggregate plan fn column conclude =>
      have hanswer : forall s x, (source.aggregate plan fn column s).1 = .ok x -> True :=
        fun _ _ _ => trivial
      refine asked_bind hanswer fun answer _ => ?_
      exact asked_settle (hfails answer)
  | page counted sliced conclude =>
      have htotal : forall s x, (source.aggregate counted .count none s).1 = .ok x -> True :=
        fun _ _ _ => trivial
      refine asked_bind htotal fun total _ => ?_
      refine asked_bind (hsupplies.select sliced) fun answer hanswer => ?_
      exact asked_settle (hfails total answer hanswer)

/-! ## Finishing -/

/-- Whether a call is to write a document that cannot be written. -/
def Call.Miswrites (call : Call) (v : Value) (failure : Failure) : Prop :=
  ResultVerb.ofName? call.verb = some .toJson ∧ jsonOf v = .error failure

namespace Chain

theorem quiet_finishStep (rows : Row -> Prop)
    (hclock : forall s time, (clock s).1 = .ok time -> times time)
    (call : Call) (v : Value) :
    Reports
      (Quiet (fun _ => (ResultVerb.ofName? call.verb).isSome)
        (fun failure => Chain.Finds rows times [call] failure ∨ call.Miswrites v failure))
      (finishStep (observedClock clock) v call) (finishStep clock v call) := by
  unfold finishStep
  cases hcanonical : canonicalVerb? call.verb with
  | none =>
      exact Reports.throw (quiet_error (Or.inl (.unknown List.mem_cons_self hcanonical)))
  | some canonical =>
      have hwider : forall (told : List OutsideCall) (result : Except Failure (List Operand)),
          Quiet (fun _ => True) (Chain.Finds rows times [call]) told result ->
          Quiet (fun _ => True)
            (fun failure => Chain.Finds rows times [call] failure ∨ call.Miswrites v failure)
            told result := by
        rintro told result ⟨htold, hends⟩
        exact ⟨htold, hends.mono (fun _ h => h) fun _ h => h.imp id Or.inl⟩
      refine quiet_bind ((quiet_resolveAll hclock [call] call.args).mono hwider) fun args _ => ?_
      cases hresult : ResultVerb.ofName? call.verb with
      | none =>
          have hknown : (EvaluationFault.notOnResult canonical).IsKnown :=
            EvaluationFault.isKnown_of_about rfl (canonicalVerb?_mem hcanonical)
          exact Reports.throw (quiet_error (Or.inl (.fault hknown)))
      | some r =>
          refine Reports.settle ⟨unasked_nil, ?_⟩
          cases happly : r.apply args v with
          | ok next => exact rfl
          | error failure =>
              refine Or.inr ?_
              cases r.fails_of_apply args v happly with
              | fault habout =>
                  exact Or.inl (.fault (EvaluationFault.isKnown_of_about habout r.text_mem))
              | document hverb hdocument => exact Or.inr ⟨by rw [hresult, hverb], hdocument⟩

/-- Whether one of some calls is to write a document that cannot be written, of the value that
the calls before it give. -/
def Stumbles (gives : Chain -> Value -> Prop) (calls : Chain) (failure : Failure) : Prop :=
  exists front call back v, calls = front ++ call :: back ∧ gives front v ∧
    call.Miswrites v failure

theorem finish_reports (rows : Row -> Prop)
    (hclock : forall s time, (clock s).1 = .ok time -> times time)
    (calls : Chain) (v : Value) (s : Session (Watched σ OutsideCall)) :
    let run := calls.finish (observedClock clock) v s
    calls.finish clock v s.forget = (run.1, run.2.forget) ∧
      exists told, run.2.host.events = s.host.events ++ told ∧
        Quiet (fun _ => forall call, call ∈ calls -> (ResultVerb.ofName? call.verb).isSome)
          (fun failure => calls.Finds rows times failure ∨
            calls.Stumbles (fun front w => (front.finish clock v s.forget).1 = .ok w) failure)
          told run.1 := by
  induction calls generalizing v s with
  | nil => exact ⟨rfl, [], (List.append_nil _).symm, quiet_ok nofun⟩
  | cons call calls ih =>
      rw [finish_cons, finish_cons, bind_apply, bind_apply]
      rcases quiet_finishStep rows hclock call v s with
        ⟨hsame, told, hevents, htold, hends⟩
      rw [hsame]
      cases hstep : finishStep (observedClock clock) v call s with
      | mk result t =>
          rw [hstep] at hsame hevents hends
          cases result with
          | error failure =>
              refine ⟨rfl, told, hevents, htold, ?_⟩
              rcases hends with hraised | hfinds | hmiswrites
              · exact Or.inl hraised
              · exact Or.inr (Or.inl (hfinds.subset (by simp)))
              · exact Or.inr (Or.inr ⟨[], call, calls, v, rfl, rfl, hmiswrites⟩)
          | ok next =>
              rcases ih next t with ⟨hsame', more, hmore, hquiet⟩
              refine ⟨hsame', told ++ more, ?_, ?_⟩
              · rw [next_ok, hmore, hevents, List.append_assoc]
              · refine Quiet.append htold ⟨hquiet.1, hquiet.2.mono ?_ ?_⟩
                · exact fun _ hcalls => List.forall_mem_cons.mpr ⟨hends, hcalls⟩
                · rintro failure (hraised | hfinds | ⟨front, call', back, w, rfl, hfront, hwrites⟩)
                  · exact Or.inl hraised
                  · exact Or.inr (Or.inl (hfinds.subset (List.subset_cons_self call calls)))
                  · refine Or.inr (Or.inr ⟨call :: front, call', back, w, rfl, ?_, hwrites⟩)
                    dsimp only
                    rw [finish_cons, bind_apply, hsame, next_ok]
                    exact hfront

theorem conclude_reports (hsupplies : Supplies rows times source clock) {chain rest : Chain}
    (hrest : rest ⊆ chain) {inquiry : Inquiry}
    (hfails : inquiry.Fails rows (chain.Finds rows times)) (s : Session (Watched σ OutsideCall)) :
    let run := (inquiry.carryOut source.observed >>= rest.finish (observedClock clock)) s
    (inquiry.carryOut source >>= rest.finish clock) s.forget = (run.1, run.2.forget) ∧
      exists asked after, run.2.host.events = s.host.events ++ (asked ++ after) ∧
        Answers inquiry.questions asked ∧ Unasked after ∧
        Ends (fun _ => forall call, call ∈ rest -> (ResultVerb.ofName? call.verb).isSome)
          (fun failure => Raised (asked ++ after) failure ∨ chain.Finds rows times failure ∨
            rest.Stumbles (fun front w =>
              ((inquiry.carryOut source >>= front.finish clock) s.forget).1 = .ok w) failure)
          run.1 := by
  rw [bind_apply, bind_apply]
  rcases asked_carryOut hsupplies hfails s with ⟨hsame, asked, hevents, hasked, hends⟩
  rw [hsame]
  cases hrun : inquiry.carryOut source.observed s with
  | mk result t =>
      rw [hrun] at hsame hevents hends
      cases result with
      | error failure =>
          refine ⟨rfl, asked, [], ?_, hasked, unasked_nil, ?_⟩
          · rw [List.append_nil]
            exact hevents
          · exact hends.imp (fun hraised => hraised.left []) Or.inl
      | ok v =>
          rcases finish_reports rows hsupplies.clock rest v t with
            ⟨hsame', after, hafter, hunasked, hends'⟩
          refine ⟨hsame', asked, after, ?_, hasked, hunasked, hends'.mono (fun _ h => h) ?_⟩
          · rw [next_ok, hafter, hevents, List.append_assoc]
          · rintro failure (hraised | hfinds | ⟨front, call, back, w, hcalls, hfront, hwrites⟩)
            · exact Or.inl (hraised.right asked)
            · exact Or.inr (Or.inl (hfinds.subset hrest))
            · refine Or.inr (Or.inr ⟨front, call, back, w, hcalls, ?_, hwrites⟩)
              dsimp only
              rw [bind_apply, hsame, next_ok]
              exact hfront

/-! ## Whole chains -/

/-- How an evaluation goes, as told by its calls to the outside, and where its failure comes
from. -/
inductive Course (source : EntitySource σ) (clock : Action σ Number) (chain : Chain)
    (s : Session σ) (bad : Failure -> Prop) : List OutsideCall -> Except Failure Value -> Prop where
  /-- No inquiry is prepared: a call up to the first terminal verb fails, the operands of that
  verb are refused, or there is no such verb. -/
  | unasked {told failure t}
      (hprepare : chain.prepare source.name source.primaryKey clock .empty s = (.error failure, t))
      (htold : Unasked told) (hfailure : Raised told failure ∨ bad failure) :
      Course source clock chain s bad told (.error failure)
  | asked {builders terminal verb rest plan args inquiry t before asked after result}
      (hsplits : chain.Splits builders terminal verb rest)
      (hargs : exists r, (Argument.resolveAll clock terminal.args r).1 = .ok args)
      (hinquiry : verb.inquiry source.name source.primaryKey plan args = .ok inquiry)
      (hasks : verb.Asks inquiry)
      (hprepare : chain.prepare source.name source.primaryKey clock .empty s =
        (.ok (inquiry, rest), t))
      (hbefore : Unasked before) (hasked : Answers inquiry.questions asked) (hafter : Unasked after)
      (hvalue : forall value, result = .ok value ->
        forall call, call ∈ rest -> (ResultVerb.ofName? call.verb).isSome)
      (hfailure : forall failure, result = .error failure ->
        Raised (before ++ (asked ++ after)) failure ∨ bad failure) :
      Course source clock chain s bad (before ++ (asked ++ after)) result

theorem Course.mono {chain : Chain} {s : Session σ} {bad bad' : Failure -> Prop}
    {told : List OutsideCall} {result : Except Failure Value}
    (hcourse : Course source clock chain s bad told result)
    (hbad : forall failure, bad failure -> bad' failure) :
    Course source clock chain s bad' told result := by
  cases hcourse with
  | unasked hprepare htold hfailure =>
      exact .unasked hprepare htold (hfailure.imp_right (hbad _))
  | asked hsplits hargs hinquiry hasks hprepare hbefore hasked hafter hvalue hfailure =>
      refine .asked hsplits hargs hinquiry hasks hprepare hbefore hasked hafter hvalue ?_
      intro failure hresult
      exact (hfailure failure hresult).imp_right (hbad failure)

theorem Course.failure {chain : Chain} {s : Session σ} {bad : Failure -> Prop}
    {told : List OutsideCall} {result : Except Failure Value} {failure : Failure}
    (hcourse : Course source clock chain s bad told result) (hresult : result = .error failure) :
    Raised told failure ∨ bad failure := by
  cases hcourse with
  | unasked hprepare htold hfailure =>
      cases hresult
      exact hfailure
  | asked hsplits hargs hinquiry hasks hprepare hbefore hasked hafter hvalue hfailure =>
      exact hfailure failure hresult

/-- Watching an evaluation changes nothing, and its calls to the outside are as `Course` says. -/
theorem evaluate_course (hsupplies : Supplies rows times source clock) (chain : Chain)
    (s : Session σ) :
    let run := chain.evaluate source.observed (observedClock clock) s.watched
    chain.evaluate source clock s = (run.1, run.2.forget) ∧
      Course source clock chain s
        (fun failure => chain.Finds rows times failure ∨
          chain.Stumbles (fun front v => (front.evaluate source clock s).1 = .ok v) failure)
        run.2.host.events run.1 := by
  have hobserved : chain.evaluate source.observed (observedClock clock) =
      chain.prepare source.name source.primaryKey (observedClock clock) .empty >>=
        fun prepared => prepared.1.carryOut source.observed >>=
          prepared.2.finish (observedClock clock) :=
    evaluate_eq source.observed (observedClock clock) chain
  have hprepared := quiet_prepare rows source.name source.primaryKey hsupplies.clock
    (List.Subset.refl chain) .empty
  rcases hprepared.fromStart s with ⟨hsame, hunasked, hends⟩
  rw [hobserved, evaluate_eq, bind_apply, bind_apply, hsame]
  cases hrun : chain.prepare source.name source.primaryKey (observedClock clock) .empty
      s.watched with
  | mk result t =>
      rw [hrun] at hsame hunasked hends
      cases result with
      | error failure => exact ⟨rfl, .unasked hsame hunasked (hends.imp_right Or.inl)⟩
      | ok prepared =>
          rcases prepared with ⟨inquiry, rest⟩
          rcases prepare_ok hsame with
            ⟨builders, terminal, verb, plan, args, hsplits, hargs, hinquiry, hother⟩
          have hrest : rest ⊆ chain := by
            rw [hsplits.calls]
            simp
          rcases conclude_reports hsupplies hrest hends t with
            ⟨hsame', asked, after, hevents, hasked, hafter, hends'⟩
          refine ⟨hsame', ?_⟩
          dsimp only [next_ok]
          rw [hevents]
          refine .asked hsplits hargs hinquiry (verb.inquiry_asks _ _ plan args inquiry hinquiry) hsame
            hunasked hasked hafter hends'.yields ?_
          intro failure hfailure
          rw [hfailure] at hends'
          rcases hends' with hraised | hfinds | ⟨front, call, back, w, hcalls, hfront, hwrites⟩
          · exact Or.inl (hraised.right _)
          · exact Or.inr (Or.inl hfinds)
          · refine Or.inr (Or.inr ⟨builders ++ terminal :: front, call, back, w, ?_, ?_, hwrites⟩)
            · rw [hsplits.calls, hcalls]
              simp
            · dsimp only
              rw [evaluate_eq, bind_apply, hother front, next_ok]
              exact hfront

end Chain

end Query

end OperatorConsole
