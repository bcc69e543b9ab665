import OperatorConsole.Command.Basic

/-!
# Discovery

Commands can be found in the modules of a directory.  A module offers a command as its
default export or as its export `command`, either the command itself or a class that builds
one without arguments.  The first offer that can be used counts.

A module that cannot be loaded or offers nothing is noted in the journal and does not keep
the others from being found.
-/

namespace OperatorConsole

inductive ModuleExport (σ : Type) where
  | candidate (candidate : Candidate σ)
  /-- A class and the number of arguments that it takes. -/
  | buildable (arity : Nat) (build : Action σ (Candidate σ))

structure CommandModule (σ : Type) where
  default : Option (ModuleExport σ)
  command : Option (ModuleExport σ)

structure DirectoryEntry (σ : Type) where
  name : String
  isFile : Bool
  load : Action σ (CommandModule σ)

namespace Discovery

/-! ## File names -/

def moduleExtensions : List (List Char) :=
  [".js".toList, ".mjs".toList, ".ts".toList]

/-- The last dot of a name and what follows it; a name that only starts with that dot has
no extension. -/
def extension (name : List Char) : List Char :=
  let reversed := name.reverse
  let tail := reversed.takeWhile (· != '.')
  match reversed.dropWhile (· != '.') with
  | '.' :: _ :: _ => '.' :: tail.reverse
  | _ => []

/-- Whether a file holds a module; declarations of types do not count. -/
def isModuleName (name : String) : Bool :=
  moduleExtensions.contains (extension name.toList) && !name.toList.reverse.take 5 == "st.d.".toList

/-- Order of names by 16-bit units. -/
def nameLe (a b : String) : Bool :=
  Text.unitsLe (Text.units a.toList) (Text.units b.toList)

def modulesOf (entries : List (DirectoryEntry σ)) : List (DirectoryEntry σ) :=
  (entries.filter fun entry => entry.isFile && isModuleName entry.name).mergeSort
    fun a b => nameLe a.name b.name

/-! ## Offers -/

def usable? (candidate : Candidate σ) : Action σ (Option (Candidate σ)) := do
  let session ← get
  return if candidate.isRunnable session.host then some candidate else none

def offer? : ModuleExport σ -> Action σ (Option (Candidate σ))
  | .candidate candidate => usable? candidate
  | .buildable 0 build => do usable? (← build)
  | .buildable _ _ => pure none

/-- The first offer that can be used. -/
def firstOffer? : List (ModuleExport σ) -> Action σ (Option (Candidate σ))
  | [] => pure none
  | e :: rest => do
      match ← offer? e with
      | some candidate => return some candidate
      | none => firstOffer? rest

def commandOf? (m : CommandModule σ) : Action σ (Option (Candidate σ)) :=
  firstOffer? (m.default.toList ++ m.command.toList)

/-! ## Directories -/

/-- The command of one module, if it has one; what happened is noted. -/
def visit (directory : String) (entry : DirectoryEntry σ) : Action σ (Option (Candidate σ)) := do
  let file := ("file", Value.text (directory ++ "/" ++ entry.name))
  match ← Action.attempt (do commandOf? (← entry.load)) with
  | .ok (some candidate) =>
      Action.debug "Discovered command module" [file]
      return some candidate
  | .ok none =>
      Action.warn "Module exports no command" [file]
      return none
  | .error failure =>
      let message ← Action.messageOf failure
      Action.error "Failed to load command module" [file, ("error", .text message)]
      return none

def discover (directory : String) (entries : Option (List (DirectoryEntry σ))) :
    Action σ (List (Candidate σ)) := do
  match entries with
  | none =>
      Action.warn "Command directory does not exist" [("directory", .text directory)]
      return []
  | some entries =>
      let found ← (modulesOf entries).mapM (visit directory)
      return found.filterMap id

end Discovery

end OperatorConsole
