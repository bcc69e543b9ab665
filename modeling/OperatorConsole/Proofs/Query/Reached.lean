import OperatorConsole.Proofs.Query.Course
import OperatorConsole.Proofs.Query.Contribution

/-!
# Plans that are reached

Builder calls whose operands are found reach a plan exactly if each of them states a contribution,
and the plan is made of these contributions.

What stands behind the builder calls starts from the plan that they have reached, so a chain is
evaluated from there.
-/

namespace OperatorConsole

namespace Query

open OperatorConsole.Action

variable {source : EntitySource σ} {clock : Action σ Number}

/-! ## Calls by name -/

/-- Whether a call is that of a verb with some scalars, the verb in any letter case. -/
structure Call.IsOf (call : Call) (name : String) (args : List Scalar) : Prop where
  verb : Text.lower call.verb.toList = Text.lower name.toList
  args : call.args = args.map .scalar

theorem BuilderVerb.ofName?_text (verb : BuilderVerb) : ofName? verb.text = some verb := by
  cases verb <;> decide

theorem TerminalVerb.ofName?_text (verb : TerminalVerb) : ofName? verb.text = some verb := by
  cases verb <;> decide

theorem ResultVerb.ofName?_text (verb : ResultVerb) : ofName? verb.text = some verb := by
  cases verb <;> decide

namespace Call.IsOf

variable {call : Call} {args : List Scalar}

theorem builder {verb : BuilderVerb} (hcall : call.IsOf verb.text args) :
    BuilderVerb.ofName? call.verb = some verb :=
  (findVerb?_congr hcall.verb).trans verb.ofName?_text

theorem terminal {verb : TerminalVerb} (hcall : call.IsOf verb.text args) :
    TerminalVerb.ofName? call.verb = some verb :=
  (findVerb?_congr hcall.verb).trans verb.ofName?_text

theorem result {verb : ResultVerb} (hcall : call.IsOf verb.text args) :
    ResultVerb.ofName? call.verb = some verb :=
  (findVerb?_congr hcall.verb).trans verb.ofName?_text

end Call.IsOf

theorem resolveAll_scalars (clock : Action σ Number) (args : List Scalar) :
    Argument.resolveAll clock (args.map .scalar) = pure (args.map .scalar) := by
  induction args with
  | nil => rfl
  | cons v rest ih =>
      rw [List.map_cons, Argument.resolveAll, ih]
      rfl

namespace Chain

/-! ## Builder calls -/

/-- A builder verb with its operands. -/
abbrev Directive :=
  BuilderVerb × List Operand

/-- Whether calls are of builder verbs, whose operands are found one after the other. -/
inductive Resolves (clock : Action σ Number) :
    Chain -> Session σ -> List Directive -> Session σ -> Prop where
  | done {s} : Resolves clock [] s [] s
  | next {call calls verb args rest s r t}
      (hverb : BuilderVerb.ofName? call.verb = some verb)
      (hargs : Argument.resolveAll clock call.args s = (.ok args, r))
      (hrest : Resolves clock calls r rest t) :
      Resolves clock (call :: calls) s ((verb, args) :: rest) t

/-- Whether contributions are what some directives state, one each. -/
def AreStated (directives : List Directive) (contributions : List Contribution) : Prop :=
  List.Forall₂ (fun directive c => directive.1.States directive.2 c) directives contributions

/-- Whether an evaluation that is at a plan gets to another one by some calls. -/
def Leads (source : EntitySource σ) (clock : Action σ Number) (plan : Plan) (calls : Chain)
    (s : Session σ) (plan' : Plan) (t : Session σ) : Prop :=
  calls.foldlM (step source clock) (.building plan) s = (.ok (.building plan'), t)

/-- Whether calls reach a plan from the start of an evaluation. -/
abbrev Reaches (source : EntitySource σ) (clock : Action σ Number) (calls : Chain)
    (s : Session σ) (plan : Plan) (t : Session σ) : Prop :=
  Leads source clock .empty calls s plan t

theorem step_builder {call : Call} {verb : BuilderVerb}
    (hverb : BuilderVerb.ofName? call.verb = some verb) (plan : Plan) :
    step source clock (.building plan) call = (do
      let args ← Argument.resolveAll clock call.args
      let plan' ← (verb.apply args plan).run
      return .building plan') := by
  have hknown : (canonicalVerb? call.verb).isSome :=
    canonicalVerb?_isSome.mpr (Or.inl (Option.isSome_of_eq_some hverb))
  rcases Option.isSome_iff_exists.mp hknown with ⟨canonical, hcanonical⟩
  unfold step applyBuilding
  rw [hcanonical, hverb]

theorem leads_cons {call : Call} {calls : Chain} {verb : BuilderVerb} {args : List Operand}
    {plan plan' : Plan} {s r t : Session σ} (hverb : BuilderVerb.ofName? call.verb = some verb)
    (hargs : Argument.resolveAll clock call.args s = (.ok args, r)) :
    Leads source clock plan (call :: calls) s plan' t ↔
      exists c, verb.States args c ∧ Leads source clock (plan.put c) calls r plan' t := by
  have hstep : forall {between}, verb.apply args plan = .ok between ->
      (Leads source clock plan (call :: calls) s plan' t ↔
        Leads source clock between calls r plan' t) := by
    intro between happly
    unfold Leads
    rw [List.foldlM_cons, step_builder hverb, bind_apply, bind_apply, hargs, next_ok, happly]
    rfl
  constructor
  · intro hleads
    cases happly : verb.apply args plan with
    | ok between =>
        rcases BuilderVerb.apply_eq_ok.mp happly with ⟨c, hc, rfl⟩
        exact ⟨c, hc, (hstep happly).mp hleads⟩
    | error fault =>
        unfold Leads at hleads
        rw [List.foldlM_cons, step_builder hverb, bind_apply, bind_apply, hargs, next_ok,
          happly] at hleads
        cases hleads
  · rintro ⟨c, hc, hleads⟩
    exact (hstep (BuilderVerb.apply_eq_ok.mpr ⟨c, hc, rfl⟩)).mpr hleads

theorem Leads.append {front back : Chain} {plan between plan' : Plan} {s r t : Session σ}
    (hfront : Leads source clock plan front s between r)
    (hback : Leads source clock between back r plan' t) :
    Leads source clock plan (front ++ back) s plan' t := by
  unfold Leads at hfront hback ⊢
  rw [List.foldlM_append, bind_apply, hfront]
  exact hback

theorem leads_scalars {call : Call} {verb : BuilderVerb} {args : List Scalar}
    (hcall : call.IsOf verb.text args) {c : Contribution}
    (hstates : verb.States (args.map .scalar) c) (plan : Plan) (s : Session σ) :
    Leads source clock plan [call] s (plan.put c) s := by
  have hargs : Argument.resolveAll clock call.args s = (.ok (args.map .scalar), s) := by
    rw [hcall.args, resolveAll_scalars]
    rfl
  exact (leads_cons hcall.builder hargs).mpr ⟨c, hstates, rfl⟩

/-- Calls whose operands are found lead on exactly if every one of them states a contribution, and
these are put into the plan. -/
theorem Resolves.leads_iff {calls : Chain} {directives : List Directive}
    {s t u : Session σ} (hresolves : Resolves clock calls s directives t) {plan plan' : Plan} :
    Leads source clock plan calls s plan' u ↔
      u = t ∧ exists contributions, AreStated directives contributions ∧
        plan' = contributions.foldl Plan.put plan := by
  induction hresolves generalizing plan with
  | done =>
      constructor
      · intro hleads
        cases hleads
        exact ⟨rfl, [], .nil, rfl⟩
      · rintro ⟨rfl, _, hstated, rfl⟩
        cases hstated
        rfl
  | next hverb hargs _ ih =>
      rw [leads_cons hverb hargs]
      constructor
      · rintro ⟨c, hc, hleads⟩
        rcases ih.mp hleads with ⟨hsession, rest, hrest, hplan⟩
        exact ⟨hsession, c :: rest, .cons hc hrest, hplan⟩
      · rintro ⟨hsession, _, hstated, hplan⟩
        cases hstated with
        | cons hc hrest => exact ⟨_, hc, ih.mpr ⟨hsession, _, hrest, hplan⟩⟩

variable (source clock) in
theorem builders_lead {calls : Chain}
    (hcalls : forall call, call ∈ calls -> (BuilderVerb.ofName? call.verb).isSome) (plan : Plan)
    (s : Session σ) :
    (exists failure t, calls.foldlM (step source clock) (.building plan) s = (.error failure, t)) ∨
      exists plan' directives t, Leads source clock plan calls s plan' t ∧
        Resolves clock calls s directives t := by
  induction calls generalizing plan s with
  | nil => exact Or.inr ⟨plan, [], s, rfl, .done⟩
  | cons call calls ih =>
      rcases List.forall_mem_cons.mp hcalls with ⟨hcall, hrest⟩
      rcases Option.isSome_iff_exists.mp hcall with ⟨verb, hverb⟩
      cases hargs : Argument.resolveAll clock call.args s with
      | mk result r =>
          cases result with
          | error failure =>
              refine Or.inl ⟨failure, r, ?_⟩
              rw [List.foldlM_cons, step_builder hverb, bind_apply, bind_apply, hargs]
              rfl
          | ok args =>
              cases happly : verb.apply args plan with
              | error fault =>
                  refine Or.inl ⟨fault.toFailure, r, ?_⟩
                  rw [List.foldlM_cons, step_builder hverb, bind_apply, bind_apply, hargs, next_ok,
                    happly]
                  rfl
              | ok between =>
                  have hstep : step source clock (.building plan) call s =
                      (.ok (.building between), r) := by
                    rw [step_builder hverb, bind_apply, hargs, next_ok, happly]
                    rfl
                  rcases ih hrest between r with ⟨failure, t, hfails⟩ |
                    ⟨plan', directives, t, hleads, hresolves⟩
                  · refine Or.inl ⟨failure, t, ?_⟩
                    rw [List.foldlM_cons, bind_apply, hstep]
                    exact hfails
                  · refine Or.inr ⟨plan', (verb, args) :: directives, t, ?_, ?_⟩
                    · unfold Leads
                      rw [List.foldlM_cons, bind_apply, hstep]
                      exact hleads
                    · exact .next hverb hargs hresolves

/-! ## What stands behind builder calls -/

section Behind

variable {builders : Chain} {plan : Plan} {s t : Session σ}

theorem evaluate_of_reaches (hreaches : Reaches source clock builders s plan t) (rest : Chain) :
    Chain.evaluate source clock (builders ++ rest) s =
      (rest.foldlM (step source clock) (.building plan) >>= conclude) t := by
  unfold evaluate
  rw [List.foldlM_append, bind_assoc, bind_apply, hreaches]
  rfl

theorem evaluate_of_failure {failure : Failure}
    (hfails : builders.foldlM (step source clock) (.building .empty) s = (.error failure, t))
    (rest : Chain) : Chain.evaluate source clock (builders ++ rest) s = (.error failure, t) := by
  unfold evaluate
  rw [List.foldlM_append, bind_assoc, bind_apply, hfails]
  rfl

theorem evaluate_terminal (hreaches : Reaches source clock builders s plan t) {call : Call}
    {verb : TerminalVerb} {args : List Scalar} (hcall : call.IsOf verb.text args) (rest : Chain) :
    Chain.evaluate source clock (builders ++ call :: rest) s =
      (verb.run source plan (args.map .scalar) >>= rest.finish clock) t := by
  have hterminal := hcall.terminal
  have hknown : (canonicalVerb? call.verb).isSome :=
    canonicalVerb?_isSome.mpr (Or.inr (Or.inl (Option.isSome_of_eq_some hterminal)))
  rcases Option.isSome_iff_exists.mp hknown with ⟨canonical, hcanonical⟩
  have hstep : step source clock (.building plan) call =
      (verb.run source plan (args.map .scalar) >>= fun result => pure (.finished result)) := by
    unfold step applyBuilding
    rw [hcanonical, BuilderVerb.ofName?_of_terminal hterminal, hterminal, hcall.args,
      resolveAll_scalars]
    rfl
  rw [evaluate_of_reaches hreaches, List.foldlM_cons, hstep]
  simp only [bind_assoc, pure_bind]
  refine congrFun (bind_congr fun result => ?_) t
  exact evaluate_finished source clock rest result

theorem finishStep_of_result {call : Call} {verb : ResultVerb} {args : List Scalar}
    (hcall : call.IsOf verb.text args) (v : Value) :
    finishStep clock v call = settle (verb.apply (args.map .scalar) v) := by
  have hresult := hcall.result
  have hknown : (canonicalVerb? call.verb).isSome :=
    canonicalVerb?_isSome.mpr (Or.inr (Or.inr (Option.isSome_of_eq_some hresult)))
  rcases Option.isSome_iff_exists.mp hknown with ⟨canonical, hcanonical⟩
  unfold finishStep
  rw [hcanonical, hcall.args, resolveAll_scalars, hresult]
  rfl

end Behind

end Chain

end Query

end OperatorConsole
