import OperatorConsole.Proofs.Query.Course
import OperatorConsole.Proofs.Query.InvokedNames

/-!
# The language of verbs

The names that may stand before an opening parenthesis are the verbs and the helpers.  Where a
name stands is not looked at when it is allowed, so a helper can stand in the place of a verb.
A chain with such a call is admitted, and its evaluation ends at that call at the latest.  All
other calls of an admitted chain have verbs that evaluation knows.
-/

namespace OperatorConsole

namespace Query

open OperatorConsole.Action Value OutsideCall

/-! ## Texts of faults -/

namespace EvaluationFault

theorem message_about {fault : EvaluationFault} {verb : String}
    (habout : fault.about? = some verb) : exists rest, fault.message = verb ++ rest := by
  cases fault with
  | unknownMethod | neverRuns | noRecordWith | noRecords | manyRecords => cases habout
  | _ =>
      cases habout
      unfold message
      try unfold arityText
      simp only [toString, String.append_assoc]
      exact ⟨_, rfl⟩

theorem message_unknown (name : String) :
    (unknownMethod name).message = "unknown method '" ++ (name ++ "'") := by
  unfold message
  simp only [toString, String.append_assoc]

theorem verb_head {verb : String} (hverb : verb ∈ verbTexts) :
    exists c rest, verb.toList = c :: rest ∧ c ≠ 'u' := by
  have hheads : forall text, text ∈ verbTexts -> (text.toList.head?.any fun c => c != 'u') = true := by
    decide
  have hhead := hheads verb hverb
  cases hlist : verb.toList with
  | nil =>
      rw [hlist] at hhead
      cases hhead
  | cons c rest =>
      rw [hlist] at hhead
      exact ⟨c, rest, rfl, by simpa using hhead⟩

theorem message_head {fault : EvaluationFault} (hknown : fault.IsKnown) :
    exists c rest, fault.message.toList = c :: rest ∧ c ≠ 'u' := by
  have hbegins : forall {text rest : String} {c : Char} {tail : List Char},
      fault.message = text ++ rest -> text.toList = c :: tail -> c ≠ 'u' ->
      exists c rest, fault.message.toList = c :: rest ∧ c ≠ 'u' := by
    intro text rest c tail hmessage htext hc
    refine ⟨c, tail ++ rest.toList, ?_, hc⟩
    rw [hmessage, String.toList_append, htext, List.cons_append]
  cases habout : fault.about? with
  | some verb =>
      rcases message_about habout with ⟨rest, hrest⟩
      rcases verb_head (hknown.2 verb habout) with ⟨c, tail, htext, hc⟩
      exact hbegins hrest htext hc
  | none =>
      cases fault with
      | unknownMethod verb => exact absurd rfl (hknown.1 verb)
      | neverRuns => exact ⟨'t', _, rfl, by decide⟩
      | noRecordWith entity key id =>
          have hmessage : exists rest, (noRecordWith entity key id).message = "no " ++ rest := by
            unfold message
            simp only [toString, String.append_assoc]
            exact ⟨_, rfl⟩
          rcases hmessage with ⟨rest, hrest⟩
          exact hbegins hrest rfl (by decide : 'n' ≠ 'u')
      | noRecords => exact ⟨'n', _, rfl, by decide⟩
      | manyRecords => exact ⟨'m', _, rfl, by decide⟩
      | _ => cases habout

theorem message_ne_unknown {fault : EvaluationFault} (hknown : fault.IsKnown) (name : String) :
    fault.message ≠ (unknownMethod name).message := by
  intro hmessage
  rcases message_head hknown with ⟨c, rest, hlist, hc⟩
  rw [hmessage, message_unknown, String.toList_append] at hlist
  exact hc (List.cons.inj hlist).1.symm

theorem unknownMethod_inj {name name' : String}
    (hfailure : (unknownMethod name).toFailure = (unknownMethod name').toFailure) :
    name = name' := by
  unfold toFailure at hfailure
  have hmessage : (unknownMethod name).message = (unknownMethod name').message := by
    injection hfailure with hquery
    injection hquery
  rw [message_unknown, message_unknown] at hmessage
  have hchars := congrArg String.toList hmessage
  simp only [String.toList_append] at hchars
  exact String.toList_inj.mp (List.append_cancel_right (List.append_cancel_left hchars))

end EvaluationFault

/-! ## Failures of other kinds -/

/-- A time without a text, a key without a text and a document that cannot be written fail
otherwise than a query does. -/
def EndsForeign (result : Except Failure α) : Prop :=
  Ends (fun _ => True) (fun failure => failure.isOwn = false) result

theorem endsForeign_textAt (h : Helper) (time : Number) : EndsForeign (h.textAt time) := by
  have hleading : forall separator count,
      EndsForeign (Calendar.leadingText separator count time) := by
    intro separator count
    unfold Calendar.leadingText
    split
    · exact trivial
    · rfl
  cases h with
  | now => exact hleading ' ' 19
  | today => exact hleading 'T' 10

theorem endsForeign_textOf (v : Value) : EndsForeign (Failure.textOf v) := by
  unfold Failure.textOf
  split
  · exact trivial
  · rfl

theorem endsForeign_localText (r : Record) : EndsForeign (Json.localText r) := by
  unfold Json.localText
  split
  · rfl
  · rename_i v _ _
    cases v <;> rfl
  · split
    · exact trivial
    · split
      · rfl
      · rfl

theorem endsForeign_standIn (v : Value) : EndsForeign (Json.standIn v) := by
  have hanswer : forall routine r, EndsForeign (Json.answerOf routine r) := by
    intro routine r
    unfold Json.answerOf
    repeat' split
    all_goals first | exact endsForeign_localText r | exact trivial | rfl
  unfold Json.standIn
  split
  · split
    · exact hanswer _ _
    · exact trivial
  · exact trivial

theorem endsForeign_jsonOf (v : Value) : EndsForeign (jsonOf v) := by
  refine (endsForeign_standIn v).bind ?_
  intro shown _
  split
  · split
    · exact trivial
    · exact trivial
  · rfl

theorem EndsForeign.ne_fault {result : Except Failure α} {failure : Failure}
    (hends : EndsForeign result) (hfailed : result = .error failure) (fault : EvaluationFault) :
    fault.toFailure ≠ failure := by
  rintro rfl
  rw [hfailed] at hends
  have howned : fault.toFailure.isOwn = false := hends
  cases howned

theorem Chain.Finds.unknownMethod {rows : Row -> Prop} {times : Number -> Prop} {chain : Chain}
    {name : String} {failure : Failure} (hfinds : chain.Finds rows times failure)
    (hname : (EvaluationFault.unknownMethod name).toFailure = failure) :
    exists call, call ∈ chain ∧ call.verb = name ∧ canonicalVerb? name = none := by
  cases hfinds with
  | @unknown call hcall hverb =>
      have hsame := EvaluationFault.unknownMethod_inj hname
      subst hsame
      exact ⟨call, hcall, rfl, hverb⟩
  | @fault fault hknown =>
      unfold EvaluationFault.toFailure at hname
      injection hname with hquery
      injection hquery with hmessage
      exact absurd hmessage.symm (EvaluationFault.message_ne_unknown hknown name)
  | time _ htext => exact absurd hname ((endsForeign_textAt _ _).ne_fault htext _)
  | key _ htext => exact absurd hname ((endsForeign_textOf _).ne_fault htext _)

theorem Chain.Course.verbs {source : EntitySource σ} {clock : Action σ Number} {chain : Chain}
    {s : Session σ} {bad : Failure -> Prop} {told : List OutsideCall} {value : Value}
    (hcourse : Course source clock chain s bad told (.ok value)) :
    forall call, call ∈ chain -> (canonicalVerb? call.verb).isSome := by
  generalize hresult : Except.ok value = result at hcourse
  cases hcourse with
  | unasked => cases hresult
  | @asked builders terminal verb rest _ _ _ _ _ _ _ _ hsplits _ _ _ _ _ _ _ hvalue =>
      intro call hcall
      rw [canonicalVerb?_isSome]
      rw [hsplits.calls] at hcall
      rcases List.mem_append.mp hcall with hbuilder | hother
      · exact Or.inl (hsplits.builders call hbuilder)
      · rcases List.mem_cons.mp hother with rfl | hrest
        · rw [hsplits.terminal]
          exact Or.inr (Or.inl rfl)
        · exact Or.inr (Or.inr (hvalue value hresult.symm call hrest))

/-! ## Allowed names -/

theorem isAllowedName_iff {name : String} :
    isAllowedName name = true ↔
      (canonicalVerb? name).isSome ∨ (Helper.ofName? name).isSome := by
  unfold isAllowedName canonicalVerb? Helper.ofName?
  rw [List.contains_iff_mem, findVerb?_isSome, findVerb?_isSome]
  unfold allowedNames
  rw [List.map_append, List.mem_append, List.map_map, List.mem_map, List.mem_map]
  unfold Text.lowerString
  simp only [Function.comp_apply, String.ofList_inj, id]

namespace Validator

theorem verdict_of_check {v : Validator} {expression : String} {s : Session σ} {chain : Chain}
    (hcheck : (v.check expression s).1 = .ok (.accepted chain)) :
    v.verdict expression = .accepted chain := by
  rw [← accept_ok (s := s)]
  unfold accept
  rw [bind_apply, next_of_ok hcheck]
  rfl

theorem verdict_verbs {v : Validator} {expression : String} {chain : Chain}
    (hverdict : v.verdict expression = .accepted chain) {call : Call} (hcall : call ∈ chain) :
    (canonicalVerb? call.verb).isSome ∨ (Helper.ofName? call.verb).isSome := by
  rcases verdict_accepted hverdict with ⟨tokens, _, hchain, hallowed⟩
  exact isAllowedName_iff.mp
    (Chain.names_allowed hchain hallowed call.verb (Chain.verb_mem_names hcall))

/-- The calls of an admitted chain have verbs, or the names of helpers.  Evaluation finds no
unknown method but at the latter, unless a source or the clock raises the same failure, and it
never passes such a call. -/
theorem check_accepts_verbs {v : Validator} {expression : String} {chain : Chain}
    {host : Session τ} (hcheck : (v.check expression host).1 = .ok (.accepted chain)) :
    (forall call, call ∈ chain ->
      (canonicalVerb? call.verb).isSome ∨ (Helper.ofName? call.verb).isSome) ∧
    forall (source : EntitySource σ) (clock : Action σ Number) (s : Session σ),
      let run := chain.evaluate source.observed (observedClock clock) s.watched
      chain.evaluate source clock s = (run.1, run.2.forget) ∧
      (forall name, run.1 = .error (EvaluationFault.unknownMethod name).toFailure ->
        Raised run.2.host.events (EvaluationFault.unknownMethod name).toFailure ∨
          exists call, call ∈ chain ∧ call.verb = name ∧ canonicalVerb? name = none ∧
            (Helper.ofName? name).isSome) ∧
      ((exists call, call ∈ chain ∧ canonicalVerb? call.verb = none) ->
        forall value, run.1 ≠ .ok value) := by
  have hverbs := fun call (hcall : call ∈ chain) =>
    verdict_verbs (verdict_of_check hcheck) hcall
  refine ⟨hverbs, ?_⟩
  intro source clock s
  have hsupplies : Supplies (fun _ => True) (fun _ => True) source clock :=
    ⟨fun _ _ _ _ _ _ => trivial, fun _ _ _ _ _ _ => trivial, fun _ _ _ => trivial⟩
  rcases Chain.evaluate_course hsupplies chain s with ⟨hsame, hcourse⟩
  refine ⟨hsame, ?_, ?_⟩
  · intro name hname
    have hfound : forall failure, (EvaluationFault.unknownMethod name).toFailure = failure ->
        (chain.Finds (fun _ => True) (fun _ => True) failure ∨
          chain.Stumbles (fun front v => (Chain.evaluate source clock front s).1 = .ok v) failure) ->
        exists call, call ∈ chain ∧ call.verb = name ∧ canonicalVerb? name = none ∧
          (Helper.ofName? name).isSome := by
      rintro failure hfailure (hfinds | ⟨front, call, back, w, _, _, _, hjson⟩)
      · rcases hfinds.unknownMethod hfailure with ⟨call, hcall, hverb, hunknown⟩
        refine ⟨call, hcall, hverb, hunknown, ?_⟩
        have hhelper := hverbs call hcall
        rw [hverb, hunknown] at hhelper
        exact hhelper.resolve_left nofun
      · exact absurd hfailure ((endsForeign_jsonOf w).ne_fault hjson _)
    exact (hcourse.failure hname).imp_right (hfound _ rfl)
  · rintro ⟨call, hcall, hunknown⟩ value hvalue
    rw [hvalue] at hcourse
    have hverb := hcourse.verbs call hcall
    rw [hunknown] at hverb
    cases hverb

theorem helper_for_verb_accepted :
    exists chain, (standard.check "now()->get()" (⟨(), []⟩ : Session Unit)).1 =
      .ok (.accepted chain) ∧ chain.map Call.verb = ["now", "get"] := by
  have hverbs : ((standard.verdict "now()->get()").chain?.map fun chain => chain.map Call.verb) =
      some ["now", "get"] := by
    decide +kernel
  rcases Option.map_eq_some_iff.mp hverbs with ⟨chain, hchain, hnames⟩
  refine ⟨chain, ?_, hnames⟩
  unfold check
  rw [Verdict.chain?_eq_some.mp hchain]
  rfl

/-- An admitted chain whose first call has no verb: evaluation takes the name for an unknown
method. -/
theorem accepted_unknown_method :
    exists chain, (standard.check "now()->get()" (⟨(), []⟩ : Session Unit)).1 =
        .ok (.accepted chain) ∧
      (exists call, call ∈ chain ∧ canonicalVerb? call.verb = none) ∧
      forall (source : EntitySource Unit) (clock : Action Unit Number) (s : Session Unit),
        (chain.evaluate source clock s).1 =
          .error (EvaluationFault.unknownMethod "now").toFailure := by
  have hnow : canonicalVerb? "now" = none := by decide
  rcases helper_for_verb_accepted with ⟨chain, hcheck, hverbs⟩
  cases chain with
  | nil => cases hverbs
  | cons call calls =>
      have hverb : call.verb = "now" := (List.cons.inj hverbs).1
      refine ⟨call :: calls, hcheck, ⟨call, List.mem_cons_self, by rw [hverb, hnow]⟩, ?_⟩
      intro source clock s
      rw [Chain.evaluate_eq, bind_apply, Chain.prepare, bind_apply]
      unfold Chain.prepareStep
      rw [hverb, hnow]
      rfl

theorem check_accepts_verbs_now :
    exists chain, (standard.check "now()->get()" (⟨(), []⟩ : Session Unit)).1 =
        .ok (.accepted chain) ∧
      (forall call, call ∈ chain ->
        (canonicalVerb? call.verb).isSome ∨ (Helper.ofName? call.verb).isSome) := by
  rcases helper_for_verb_accepted with ⟨chain, hcheck, _⟩
  exact ⟨chain, hcheck, (check_accepts_verbs (σ := Unit) hcheck).1⟩

end Validator

end Query

end OperatorConsole
