import OperatorConsole.Command.Catalog

/-!
# Registry

The commands that an operator can pick from, in the order in which their names were
first registered.  A command that is registered under a name already taken replaces
the other one in its place.

A registration checks everything before the registry changes, so one that fails leaves
it as it was.  Loggers are taken not to fail.
-/

namespace OperatorConsole

structure Registry (σ : Type) where
  commands : List (Command σ)

namespace Registry

def empty : Registry σ :=
  ⟨[]⟩

/-! ## Looking up -/

def get? (registry : Registry σ) (name : String) : Option (Command σ) :=
  registry.commands.find? (·.name == name)

def contains (registry : Registry σ) (name : String) : Bool :=
  registry.commands.any (·.name == name)

def names (registry : Registry σ) : List String :=
  registry.commands.map Command.name

def size (registry : Registry σ) : Nat :=
  registry.commands.length

def filterByRisk (registry : Registry σ) (risk : RiskLevel) : List (Command σ) :=
  registry.commands.filter fun c => c.descriptor.riskLevel == risk

def requiringConfirmation (registry : Registry σ) : List (Command σ) :=
  registry.commands.filter fun c => c.descriptor.requiresConfirmation

/-- Adds an item to the group of its key; a new key opens a group at the end. -/
def addToGroup (key : String) (item : α) : List (String × List α) -> List (String × List α)
  | [] => [(key, [item])]
  | (k, items) :: rest =>
      if k = key then (k, items ++ [item]) :: rest else (k, items) :: addToGroup key item rest

def groupByCategory (registry : Registry σ) : List (String × List (Command σ)) :=
  registry.commands.foldl (fun groups c => addToGroup c.descriptor.category c groups) []

def catalog (registry : Registry σ) : Action σ (List CatalogEntry) :=
  registry.commands.mapM fun c => c.catalogEntry c.descriptor.requiresConfirmation

/-! ## Registering -/

/-- Puts a command in the place of the one with its name, or at the end. -/
def place (command : Command σ) : List (Command σ) -> List (Command σ)
  | [] => [command]
  | c :: rest => if c.name = command.name then command :: rest else c :: place command rest

def insert (registry : Registry σ) (command : Command σ) : Registry σ :=
  ⟨place command registry.commands⟩

def register (registry : Registry σ) (candidate : Candidate σ) :
    Action σ (Registry σ × Command σ) := do
  let session ← get
  let command ← Action.settle (candidate.toCommand session.host)
  if registry.contains command.name then
    Action.warn "Replacing registered command" [("name", .text command.name)]
  Action.debug "Registered command"
    [("name", .text command.name), ("riskLevel", .text command.descriptor.riskLevel.word)]
  return (registry.insert command, command)

/-- Registers candidates in order and stops at the first failure, which it hands over;
what was registered before stays. -/
def registerMany (registry : Registry σ) :
    List (Candidate σ) -> Action σ (Registry σ × Except Failure (List (Command σ)))
  | [] => pure (registry, .ok [])
  | candidate :: rest => do
      match ← Action.attempt (registry.register candidate) with
      | .error failure => return (registry, .error failure)
      | .ok (registry, command) =>
          let (registry, commands) ← registry.registerMany rest
          return (registry, commands.map (command :: ·))

def reset (_ : Registry σ) : Registry σ :=
  empty

end Registry

end OperatorConsole
