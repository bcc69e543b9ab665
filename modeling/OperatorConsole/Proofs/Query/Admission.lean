import OperatorConsole.Proofs.Action.Contract
import OperatorConsole.Query.Validator

/-!
# Admission

The verdict on an expression, from the outside: what an admitted expression has passed, and
what asking for admission does to a session.
-/

namespace OperatorConsole

namespace Query

namespace Verdict

/-- The chain that an expression is accepted as. -/
def chain? : Verdict -> Option Chain
  | .accepted chain => some chain
  | .rejected _ => none

theorem chain?_eq_some {verdict : Verdict} {chain : Chain} :
    verdict.chain? = some chain ↔ verdict = .accepted chain := by
  cases verdict with
  | accepted other => simp [chain?]
  | rejected rejection => simp [chain?]

end Verdict

namespace Validator

open OperatorConsole.Action

/-- What an admitted expression has passed: it splits into tokens that read as the chain, and
every name that they invoke is allowed. -/
theorem verdict_accepted {v : Validator} {expression : String} {chain : Chain}
    (hverdict : v.verdict expression = .accepted chain) :
    exists tokens, tokenize expression = .ok tokens ∧ Chain.ofTokens tokens = .ok chain ∧
      forall name, name ∈ invokedNames tokens -> isAllowedName name = true := by
  unfold verdict at hverdict
  dsimp only at hverdict
  split at hverdict
  · cases hverdict
  · rename_i hverbs
    split at hverdict
    · cases hverdict
    · split at hverdict
      · cases hverdict
      · rename_i tokens htokens
        split at hverdict
        · rename_i chain' hchain
          cases hverdict
          refine ⟨tokens, htokens, hchain, ?_⟩
          intro name hname
          rw [htokens] at hverbs
          have hnone := Option.map_eq_none_iff.mp hverbs
          have hallowed := List.find?_eq_none.mp hnone name hname
          simpa using hallowed
        · cases hverdict

theorem logVerdict_result (verdict : Verdict) (s : Session σ) :
    (logVerdict verdict s).1 = .ok () := by
  cases verdict with
  | accepted chain => rfl
  | rejected rejection =>
      cases rejection with
      | disallowedVerb verb => rfl
      | disallowedPattern pattern => rfl
      | malformed detail => rfl

theorem accept_apply (v : Validator) (expression : String) (s : Session σ) :
    v.accept expression s =
      (match v.verdict expression with
        | .accepted chain => .ok chain
        | .rejected rejection => .error (.rejected rejection),
      (logVerdict (v.verdict expression) s).2) := by
  have hlogged := logVerdict_result (v.verdict expression) s
  unfold accept check
  rw [bind_apply, bind_apply]
  cases hlog : logVerdict (v.verdict expression) s with
  | mk result t =>
      rw [hlog] at hlogged
      change result = .ok () at hlogged
      subst hlogged
      rw [next_ok, pure_apply, next_ok]
      cases v.verdict expression with
      | accepted chain => rfl
      | rejected rejection => rfl

theorem agree_accept {related : σ -> τ -> Prop} (v : Validator) (expression : String) :
    Agree related (fun _ => True) (fun _ => True) (v.accept expression) (v.accept expression) := by
  have hlog : forall verdict, Agree related (fun _ => True) (fun _ => True)
      (logVerdict verdict) (logVerdict verdict) := by
    intro verdict
    cases verdict with
    | accepted chain => exact Agree.pure trivial
    | rejected rejection =>
        cases rejection with
        | disallowedVerb verb => exact Agree.log _
        | disallowedPattern pattern => exact Agree.log _
        | malformed detail => exact Agree.pure trivial
  have hcheck : Agree related (fun _ => True) (fun _ => True)
      (v.check expression) (v.check expression) := by
    apply (hlog _).bind
    intro _ _
    exact Agree.pure trivial
  apply hcheck.bind
  intro verdict _
  cases verdict with
  | accepted chain => exact Agree.pure trivial
  | rejected rejection => exact Agree.throw trivial

theorem accept_ok {v : Validator} {expression : String} {s : Session σ} {chain : Chain} :
    (v.accept expression s).1 = .ok chain ↔ v.verdict expression = .accepted chain := by
  rw [accept_apply]
  cases v.verdict expression with
  | accepted chain' => simp
  | rejected rejection => simp

end Validator

end Query

end OperatorConsole
