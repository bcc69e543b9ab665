import OperatorConsole.Command.Descriptor
import OperatorConsole.Journal
import OperatorConsole.Options.Values

/-!
# Commands

## Candidates

A candidate is what a host program offers for registration.  It may lack what a
command needs.  Its description is looked up in the state of the host each time, so
that later changes to it can be seen.

## Commands

A command is what a candidate became when it was registered.  Its descriptor is the
one that was checked then and never changes; the command validates options against
it.  Commands are taken not to write to the options that they are given, which are the
same for validation, execution and the audit.
-/

namespace OperatorConsole

structure Operator where
  id : Option String
  name : Option String
  email : Option String
  ipAddress : Option String
  userAgent : Option String
  /-- What else is known, and known parts that are no text. -/
  others : Fields
  deriving DecidableEq, Repr

namespace Operator

def named (name : String) : Operator :=
  ⟨none, some name, none, none, none, []⟩

def partNames : List String :=
  ["id", "name", "email", "ipAddress", "userAgent"]

def ofFields (fields : Fields) : Operator :=
  let part := fun (key : String) =>
    match Fields.own fields key with
    | .text s => some s
    | _ => none
  ⟨part "id", part "name", part "email", part "ipAddress", part "userAgent",
    fields.filter fun field => !partNames.contains field.1 || (part field.1).isNone⟩

def shownName (o : Operator) : String :=
  match o.name with
  | some name => name
  | none => ((Fields.own o.others "name").text?).getD ""

/-- Stands for the operator of a run that nobody is attached to. -/
def system : Operator :=
  named "CLI"

def toValue (o : Operator) : Value :=
  .ofFields (Fields.ofOption "id" (o.id.map .text) ++
    Fields.ofOption "name" (o.name.map .text) ++ Fields.ofOption "email" (o.email.map .text) ++
    Fields.ofOption "ipAddress" (o.ipAddress.map .text) ++
    Fields.ofOption "userAgent" (o.userAgent.map .text) ++ o.others)

end Operator

structure CommandContext where
  environment : String
  user : Operator
  startedAt : Number
  deriving DecidableEq, Repr

structure CommandResult where
  output : String
  exitCode : Number
  error : Option String
  deriving DecidableEq, Repr

namespace CommandResult

def success (output : String) : CommandResult :=
  ⟨output, 0, none⟩

def toValue (r : CommandResult) : Value :=
  .ofFields ([("output", .text r.output), ("exitCode", .number r.exitCode)] ++
    Fields.ofOption "error" (r.error.map .text))

end CommandResult

/-! ## Candidates -/

structure Candidate (σ : Type) where
  /-- What the candidate says about itself; absent if it says nothing. -/
  described : σ -> Value
  /-- Checks option values, against the given options or else the candidate's own. -/
  validate : Option (Value -> Option (List OptionSpec) -> Action σ Unit)
  execute : Option (Value -> CommandContext -> Action σ (Option CommandResult))
  /-- Answers for the suppliers of choices that its options name. -/
  supply : String -> Action σ (List Value)

namespace Candidate

/-- Something that is no command at all but may have a description. -/
def inert (described : Value) : Candidate σ :=
  ⟨fun _ => described, none, none, fun _ => pure []⟩

/-- Validates against the given options, or else those of the description as it is now. -/
def validateOptions (described : σ -> Value) (values : Value)
    (schema : Option (List OptionSpec)) : Action σ Unit := do
  let session ← get
  let schema ← match schema with
    | some schema => pure schema
    | none => Action.settle (Descriptor.optionsOf (described session.host))
  let values ← Action.settle (Options.given values schema)
  Action.settle (Options.validate values schema)

def isDescription : Value -> Bool
  | .list _ => true
  | v => v.isRecordLike

def givenName (described : Value) : Value :=
  ((Record.ofValue? described).map fun r => r.get "name").getD .absent

def name (described : Value) : String :=
  match givenName described with
  | .text s => s
  | _ => ""

def isRunnable (c : Candidate σ) (host : σ) : Bool :=
  isDescription (c.described host) && c.validate.isSome && c.execute.isSome

end Candidate

/-! ## Commands -/

structure Command (σ : Type) where
  descriptor : Descriptor
  validate : Value -> Action σ Unit
  execute : Value -> CommandContext -> Action σ (Option CommandResult)
  supply : String -> Action σ (List Value)

namespace Command

def name (c : Command σ) : String :=
  c.descriptor.name

end Command

namespace Candidate

def incomplete : String :=
  "a command needs a descriptor object and validate and execute methods"

/-- The command that the candidate becomes, its description being as it is now. -/
def toCommand (c : Candidate σ) (host : σ) : Except Failure (Command σ) :=
  let described := c.described host
  let refusal := fun issues => Failure.command (name described) (.invalidCommand issues)
  match isDescription described, c.validate, c.execute with
  | true, some validate, some execute =>
      match (Descriptor.check described).toExcept with
      | .ok descriptor =>
          let checked := fun values => validate values (some descriptor.options)
          .ok ⟨descriptor, checked, execute, c.supply⟩
      | .error issues => .error (refusal (issues.map Issue.text))
  | _, _, _ => .error (refusal [incomplete])

end Candidate

end OperatorConsole
