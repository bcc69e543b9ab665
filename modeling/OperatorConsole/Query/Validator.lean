import OperatorConsole.Journal
import OperatorConsole.Query.Chain
import OperatorConsole.Query.Denied

/-!
# Admission of queries

A query expression is admitted if it passes three tests, in this order: every
invoked name is allowed, no denied pattern occurs in it, and it reads as a chain of
calls.  `Validator.verdict` decides; `check` and `accept` also log a rejection.
-/

namespace OperatorConsole

namespace Query

inductive Verdict where
  | accepted (chain : Chain)
  | rejected (rejection : QueryRejection)
  deriving Repr

namespace Verdict

def isAccepted : Verdict -> Bool
  | .accepted _ => true
  | .rejected _ => false

/-- The verdict without the chain, under the names of a report. -/
def toValue : Verdict -> Value
  | .accepted _ => .ofFields [("accepted", .bool true)]
  | .rejected (.disallowedVerb verb) =>
      .ofFields [("accepted", .bool false), ("rejectedVerb", .text verb)]
  | .rejected (.disallowedPattern pattern) =>
      .ofFields [("accepted", .bool false), ("rejectedPattern", .text pattern)]
  | .rejected (.malformed detail) =>
      .ofFields [("accepted", .bool false), ("parseError", .text detail)]

end Verdict

structure Validator where
  /-- What is denied beside the standard patterns. -/
  extra : List Denial

namespace Validator

def standard : Validator where
  extra := []

def denials (v : Validator) : List Denial :=
  DeniedPattern.standard.map DeniedPattern.denial ++ v.extra

/-- The names that an expression invokes; a loose reading of them where it cannot
be split into tokens. -/
def namesOf (expression : String) : Except Malformed (List Token) -> List String
  | .ok tokens => invokedNames tokens
  | .error _ => looseInvocations expression.toList

def disallowedVerb? (names : List String) : Option String :=
  (names.find? fun name => !isAllowedName name).map Text.lowerString

def deniedPattern? (v : Validator) (expression : String) : Option String :=
  (v.denials.find? fun d => d.occursIn expression).map Denial.source

def verdict (v : Validator) (expression : String) : Verdict :=
  let tokens := tokenize expression
  match disallowedVerb? (namesOf expression tokens) with
  | some verb => .rejected (.disallowedVerb verb)
  | none =>
      match v.deniedPattern? expression with
      | some pattern => .rejected (.disallowedPattern pattern)
      | none =>
          match tokens with
          | .error fault => .rejected (.malformed fault.detail)
          | .ok tokens =>
              match Chain.ofTokens tokens with
              | .ok chain => .accepted chain
              | .error fault => .rejected (.malformed fault.detail)

def logVerdict : Verdict -> Action σ Unit
  | .rejected (.disallowedVerb verb) =>
      Action.warn "Rejected query verb" [("verb", .text verb)]
  | .rejected (.disallowedPattern pattern) =>
      Action.warn "Rejected query pattern" [("pattern", .text pattern)]
  | _ => pure ()

def check (v : Validator) (expression : String) : Action σ Verdict := do
  let verdict := v.verdict expression
  logVerdict verdict
  return verdict

def accept (v : Validator) (expression : String) : Action σ Chain := do
  match ← v.check expression with
  | .accepted chain => return chain
  | .rejected rejection => throw (.rejected rejection)

end Validator

end Query

end OperatorConsole
