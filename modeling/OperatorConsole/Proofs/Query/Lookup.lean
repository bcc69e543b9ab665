import OperatorConsole.Proofs.Query.Building
import OperatorConsole.Proofs.Query.Provenance
import OperatorConsole.Proofs.Sql.Drafted
import OperatorConsole.Proofs.Sql.Formula

/-!
# Lookups by key

A verb that looks a row up by its key joins one more condition to those that the builder verbs
have left: a test for the key, behind the word "and".  As "and" binds tighter than "or", the test
narrows the last alternative of the conditions and leaves the ones before it as they are.  Only
without another alternative is the row under the key the only one that can be found.
-/

namespace OperatorConsole

namespace Query

open OperatorConsole.Action OutsideCall
open Sql (AllTrue Forces Formula Table Truth alternatives)

variable {clock : Action σ Number}

/-! ## Questions of a run -/

theorem OutsideCall.Answers.question_mem {questions : List Question} {calls : List OutsideCall}
    (hanswers : Answers questions calls) {question : Question} {failure? : Option Failure}
    (hcall : .asked question failure? ∈ calls) : question ∈ questions := by
  induction hanswers with
  | done => cases hcall
  | failed =>
      cases List.mem_singleton.mp hcall
      exact List.mem_cons_self
  | answered _ ih =>
      rcases List.mem_cons.mp hcall with hsame | hlater
      · cases hsame
        exact List.mem_cons_self
      · exact List.mem_cons_of_mem _ (ih hlater)

theorem Chain.Course.question_mem {source : EntitySource σ} {chain : Chain} {s : Session σ}
    {bad : Failure -> Prop} {told : List OutsideCall} {result : Except Failure Value}
    (hcourse : chain.Course source clock s bad told result) {question : Question}
    {failure? : Option Failure} (hasked : .asked question failure? ∈ told) :
    exists inquiry rest t, chain.prepare source.name source.primaryKey clock .empty s =
        (.ok (inquiry, rest), t) ∧ question ∈ inquiry.questions := by
  have habsent : forall {calls : List OutsideCall}, Unasked calls ->
      .asked question failure? ∉ calls := by
    intro calls hcalls hmem
    cases hcalls _ hmem
  cases hcourse with
  | unasked _ htold _ => exact absurd hasked (habsent htold)
  | @asked _ _ _ rest _ _ inquiry t _ _ _ _ _ _ _ _ hprepare hbefore hquestions hafter =>
      refine ⟨inquiry, rest, t, hprepare, ?_⟩
      rcases List.mem_append.mp hasked with hearly | hlater
      · exact absurd hearly (habsent hbefore)
      · rcases List.mem_append.mp hlater with hthere | hlate
        · exact hquestions.question_mem hthere
        · exact absurd hlate (habsent hafter)

/-! ## Conditions with a test for a key -/

/-- What conditions come to that have a test for a key at their end.  Without the test they have
the alternatives `earlier` and, behind these, `last`. -/
structure Keyed (key : Condition) (clauses : List Clause) (earlier : List (List Condition))
    (last : List Condition) : Prop where
  read : exists f : Formula, f.Reads clauses
  text : forall (f : Formula) (table : Table) bound text pushed, f.Reads clauses ->
    (table.whereClause clauses).run bound = .ok (text, pushed) -> text = " WHERE " ++ f.text
  /-- Only the last alternative is narrowed by the test. -/
  selects : forall (f : Formula) (answers : Condition -> Truth), f.Reads clauses ->
    (f.value answers = some true ↔
      (exists conditions, conditions ∈ earlier ∧ AllTrue answers conditions) ∨
        (AllTrue answers last ∧ answers key = some true))
  forces : Forces clauses key ↔ forall conditions, conditions ∈ earlier -> key ∈ conditions

theorem keyed_behind (key : Condition) (clauses : List Clause) :
    exists earlier last, alternatives clauses = earlier ++ [last] ∧
      Keyed key (clauses ++ [⟨.and, key⟩]) earlier last := by
  rcases Sql.alternatives_behind clauses key with ⟨earlier, last, hclauses, hkeyed⟩
  have hnonempty : clauses ++ [⟨.and, key⟩] ≠ [] := List.append_ne_nil_of_right_ne_nil _ nofun
  refine ⟨earlier, last, hclauses, ?_⟩
  constructor
  case read =>
    rcases List.exists_cons_of_ne_nil hnonempty with ⟨clause, rest, hcons⟩
    rw [hcons]
    exact Formula.exists_reads clause rest
  case text =>
    intro f table bound text pushed hreads hwritten
    rw [table.drafts_whereClause _ bound, Table.vet_eq_ok] at hwritten
    cases hwritten.2
    exact hreads.text_where
  case selects =>
    intro f answers hreads
    rw [hreads.value_eq_true, hkeyed]
    simp only [List.mem_append, List.mem_singleton, or_and_right, exists_or, exists_eq_left,
      AllTrue, or_imp, forall_and, forall_eq]
  case forces =>
    rw [Sql.forces_iff hnonempty, hkeyed, List.forall_mem_append]
    refine and_iff_left ?_
    intro conditions hconditions
    rw [List.mem_singleton.mp hconditions]
    exact List.mem_append_right last List.mem_cons_self

/-! ## Looking up -/

namespace TerminalVerb

theorem inquiry_find {verb : TerminalVerb} (hverb : verb = .find ∨ verb = .findOrFail)
    {entity key : String} {plan : Plan} {args : List Operand} {inquiry : Inquiry}
    (hinquiry : verb.inquiry entity key plan args = .ok inquiry) :
    exists id, args = [.scalar id] ∧
      inquiry = .first (plan.withKey key id) (found (verb == .findOrFail) entity key id) := by
  have hask : askFind (verb == .findOrFail) verb.text entity key plan args = .ok inquiry := by
    rcases hverb with rfl | rfl
    · exact hinquiry
    · exact hinquiry
  match args, hask with
  | [.scalar id], hask => exact ⟨id, rfl, (Except.ok.inj hask).symm⟩
  | [], hask => cases hask
  | [.list items], hask => cases hask
  | a :: b :: others, hask =>
      have harity : checkArity verb.text (a :: b :: others) 1 1 =
          .error (.arity verb.text 1 1 (others.length + 2)) := by
        simp [checkArity]
      unfold askFind at hask
      rw [harity] at hask
      cases hask

theorem found_ok {required : Bool} {entity key : String} {id : Scalar} {row : Option Row}
    {value : Value} (hfound : found required entity key id row = .ok value) :
    (exists r, row = some r ∧ value = r.toValue) ∨
      (row = none ∧ required = false ∧ value = .null) := by
  cases row with
  | some r => exact Or.inl ⟨r, rfl, (Except.ok.inj hfound).symm⟩
  | none =>
      cases required with
      | true => cases hfound
      | false => exact Or.inr ⟨rfl, rfl, (Except.ok.inj hfound).symm⟩

end TerminalVerb

theorem Inquiry.first_carryOut_ok {source : EntitySource σ} {plan : Plan}
    {conclude : Option Row -> Except Failure Value} {s : Session σ} {value : Value}
    (hvalue : ((Inquiry.first plan conclude).carryOut source s).1 = .ok value) :
    exists answer, (source.select (plan.withLimit 1) s).1 = .ok answer ∧
      conclude answer.head? = .ok value := by
  rcases bind_ok hvalue with ⟨answer, _, hanswer, hconclude⟩
  exact ⟨answer, hanswer, hconclude⟩

namespace Chain

theorem evaluate_found {source : EntitySource σ} {chain : Chain} {s t : Session σ}
    {required : Bool} {plan : Plan} {id : Scalar} {value : Value}
    (hprepare : chain.prepare source.name source.primaryKey clock .empty s =
      (.ok (.first plan (TerminalVerb.found required source.name source.primaryKey id), []), t))
    (hvalue : (chain.evaluate source clock s).1 = .ok value) :
    (exists answer row, (source.select (plan.withLimit 1) t).1 = .ok answer ∧
        answer.head? = some row ∧ value = row.toValue) ∨
      (required = false ∧ value = .null) := by
  rw [evaluate_eq, bind_apply, hprepare, next_ok] at hvalue
  rcases bind_ok hvalue with ⟨result, _, hresult, hfinish⟩
  cases hfinish
  rcases Inquiry.first_carryOut_ok hresult with ⟨answer, hanswer, hfound⟩
  rcases TerminalVerb.found_ok hfound with ⟨row, hrow, hgiven⟩ | ⟨_, hrequired, hgiven⟩
  · exact Or.inl ⟨answer, row, hanswer, hrow, hgiven⟩
  · exact Or.inr ⟨hrequired, hgiven⟩

/-- What a lookup behind builder calls asks for and what it gives.  The source is asked for the
first row of the plan that these calls build, with a test for the key behind its conditions.
However the text of these conditions is read, the test narrows the last alternative and no other;
without `orWhere` every row that is selected is under the key. -/
theorem evaluate_finds_by_key (source : EntitySource σ) (clock : Action σ Number) (s : Session σ)
    {chain builders rest : Chain} {terminal : Call} {verb : TerminalVerb}
    (hsplits : chain.Splits builders terminal verb rest)
    (hverb : verb = .find ∨ verb = .findOrFail) {question : Question} {failure? : Option Failure}
    (hasked : .asked question failure? ∈
      (chain.evaluate source.observed (observedClock clock) s.watched).2.host.events) :
    exists plan id earlier last,
      let asked := (plan.withKey source.primaryKey id).withLimit 1
      let key := Condition.basic source.primaryKey .eq id
      Builds clock .empty builders plan ∧
        (exists r, (Argument.resolveAll clock terminal.args r).1 = .ok [.scalar id]) ∧
        question = .select asked ∧
        alternatives plan.conditions = earlier ++ [last] ∧
        Keyed key asked.conditions earlier last ∧
        ((forall call, call ∈ builders -> BuilderVerb.ofName? call.verb ≠ some .orWhere) ->
          Forces asked.conditions key) ∧
        (rest = [] -> forall value, (chain.evaluate source clock s).1 = .ok value ->
          (exists r answer row, (source.select asked r).1 = .ok answer ∧
            answer.head? = some row ∧ value = row.toValue) ∨
          (verb = .find ∧ value = .null)) := by
  have hsupplies : Supplies (fun _ => True) (fun _ => True) source clock :=
    ⟨fun _ _ _ _ _ _ => trivial, fun _ _ _ _ _ _ => trivial, fun _ _ _ => trivial⟩
  rcases (evaluate_course hsupplies chain s).2.question_mem hasked with
    ⟨inquiry, rest', t, hprepare, hquestion⟩
  have hbuilt := hprepare
  rw [hsplits.calls] at hbuilt
  rcases prepare_builds hsplits.builders hsplits.terminal hbuilt with
    ⟨rfl, plan, args, hbuilds, hargs, hinquiry⟩
  rcases verb.inquiry_find hverb hinquiry with ⟨id, rfl, rfl⟩
  let key := Condition.basic source.primaryKey .eq id
  rcases keyed_behind key plan.conditions with ⟨earlier, last, halternatives, hkeyed⟩
  refine ⟨plan, id, earlier, last, hbuilds, hargs, List.mem_singleton.mp hquestion, halternatives,
    hkeyed, ?_, ?_⟩
  · intro hcalls
    have hbefore := hbuilds.joined_by_and hcalls (List.forall_mem_nil _)
    have hbehind : forall clause, clause ∈ [(⟨.and, key⟩ : Clause)] -> clause.joint = .and :=
      List.forall_mem_singleton.mpr rfl
    exact Sql.forces_of_and (List.forall_mem_append.mpr ⟨hbefore, hbehind⟩)
      (List.mem_append_right plan.conditions List.mem_cons_self)
  · rintro rfl value hvalue
    rcases evaluate_found hprepare hvalue with ⟨answer, row, hfound⟩ | ⟨hrequired, hnull⟩
    · exact Or.inl ⟨t, answer, row, hfound⟩
    · refine Or.inr ⟨hverb.resolve_right ?_, hnull⟩
      rintro rfl
      cases hrequired

theorem evaluate_finds_by_key_single :
    let chain : Chain := [⟨"where", [.scalar (.text "a"), .scalar (.number 1)], 0⟩,
      ⟨"find", [.scalar (.number 5)], 15⟩]
    let asked := ((Plan.empty.addClause .and (.basic "a" .eq (.number 1))).withKey "id"
      (.number 5)).withLimit 1
    chain.Splits (chain.take 1) ⟨"find", [.scalar (.number 5)], 15⟩ .find [] ∧
      .asked (.select asked) none ∈
        (chain.evaluate (singleRowSource [("id", .number 5), ("a", .number 1)]).observed
          (observedClock (pure 0)) (Session.watched ⟨(), []⟩)).2.host.events ∧
      Forces asked.conditions (.basic "id" .eq (.number 5)) := by
  intro chain asked
  have hsplits : chain.Splits (chain.take 1) ⟨"find", [.scalar (.number 5)], 15⟩ .find [] :=
    ⟨rfl, by decide +kernel, by decide +kernel⟩
  have hasked : .asked (.select asked) none ∈
      (chain.evaluate (singleRowSource [("id", .number 5), ("a", .number 1)]).observed
        (observedClock (pure 0)) (Session.watched ⟨(), []⟩)).2.host.events := by
    decide +kernel
  rcases evaluate_finds_by_key _ _ _ hsplits (Or.inl rfl) hasked with
    ⟨plan, id, _, _, _, ⟨_, hid⟩, hquestion, _, _, hforces, _⟩
  cases hid
  refine ⟨hsplits, hasked, ?_⟩
  rw [Question.select.inj hquestion]
  exact hforces (by decide +kernel)

def equalities (fields : Fields) : Condition -> Truth
  | .basic column .eq value => ((fields.own? column).bind Value.scalar?).map (· == value)
  | _ => none

/-- A permitted lookup behind `orWhere` selects a row under another key, and gives it. -/
theorem found_under_other_key :
    let fields : Fields := [("id", .number 1), ("a", .number 1), ("b", .number 0)]
    exists (chain : Chain) (plan : Plan) (f : Formula),
      let run := chain.evaluate (singleRowSource fields).observed (observedClock (pure 0))
        (Session.watched ⟨(), []⟩)
      Validator.standard.verdict "where('a', 1)->orWhere('b', 2)->find(5)" = .accepted chain ∧
        run.2.host.events = [.asked (.select plan) none] ∧ f.Reads plan.conditions ∧
        f.value (equalities fields) = some true ∧
        equalities fields (.basic "id" .eq (.number 5)) = some false ∧
        run.1 = .ok (Record.ofFields fields).toValue := by
  intro fields
  let plan := (((Plan.empty.addClause .and (.basic "a" .eq (.number 1))).addClause .or
    (.basic "b" .eq (.number 2))).withKey "id" (.number 5)).withLimit 1
  have hrun : ((Validator.standard.verdict "where('a', 1)->orWhere('b', 2)->find(5)").chain?.map
      fun chain =>
        let run := chain.evaluate (singleRowSource fields).observed (observedClock (pure 0))
          (Session.watched ⟨(), []⟩)
        (run.2.host.events, run.1)) =
      some ([.asked (.select plan) none], .ok (Record.ofFields fields).toValue) := by
    decide +kernel
  rcases Option.map_eq_some_iff.mp hrun with ⟨chain, hchain, hresult⟩
  refine ⟨chain, plan, .or (.test (.basic "a" .eq (.number 1)))
    (.and (.test (.basic "b" .eq (.number 2))) (.test (.basic "id" .eq (.number 5)))),
    Verdict.chain?_eq_some.mp hchain, congrArg Prod.fst hresult, ?_, ?_, ?_,
    congrArg Prod.snd hresult⟩
  · exact ⟨⟨trivial, trivial, trivial⟩, .and, rfl⟩
  · decide +kernel
  · decide +kernel

end Chain

end Query

end OperatorConsole
