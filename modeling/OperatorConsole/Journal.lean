import OperatorConsole.Failure

/-!
# Journal

Operations that touch the outside run as an `Action`.  It carries a session: the
state of the host program, of any type, and the journal of what the console has
logged so far.  An action that fails keeps what it did to the session.
-/

namespace OperatorConsole

inductive LogLevel where
  | debug
  | info
  | warn
  | error
  deriving DecidableEq, Repr

def LogLevel.text : LogLevel -> String
  | .debug => "debug"
  | .info => "info"
  | .warn => "warn"
  | .error => "error"

def LogLevel.ofText? (text : String) : Option LogLevel :=
  [LogLevel.debug, .info, .warn, .error].find? fun level => level.text == text

structure LogEntry where
  level : LogLevel
  message : String
  /-- Facts beside the message, as a rule a record. -/
  details : Option Value
  deriving DecidableEq, Repr

/-- The host's state and what has been logged, the oldest entry first. -/
structure Session (σ : Type) where
  host : σ
  journal : List LogEntry

abbrev Action (σ : Type) :=
  ExceptT Failure (StateM (Session σ))

namespace Action

def log (entry : LogEntry) : Action σ Unit :=
  modify fun s => { s with journal := s.journal ++ [entry] }

def debug (message : String) (details : Fields) : Action σ Unit :=
  log ⟨.debug, message, some (.ofFields details)⟩

def info (message : String) (details : Fields) : Action σ Unit :=
  log ⟨.info, message, some (.ofFields details)⟩

def warn (message : String) (details : Fields) : Action σ Unit :=
  log ⟨.warn, message, some (.ofFields details)⟩

def error (message : String) (details : Fields) : Action σ Unit :=
  log ⟨.error, message, some (.ofFields details)⟩

def attempt (action : Action σ α) : Action σ (Except Failure α) :=
  fun s =>
    match action s with
    | (result, s) => (.ok result, s)

def settle (result : Except Failure α) : Action σ α :=
  ExceptT.mk (pure result)

def messageOf (failure : Failure) : Action σ String :=
  settle failure.message

def ofHost (step : σ -> Except Failure α × σ) : Action σ α :=
  fun s =>
    match step s.host with
    | (result, host) => (result, { s with host := host })

end Action

/-! ## Console lines -/

/-- A line for the console, under the scope of the component that logs. -/
structure ConsoleLine where
  level : LogLevel
  text : String
  details : Option Value
  deriving DecidableEq, Repr

/-- The line that an entry prints, if it prints one: debug entries only when asked
for, and only warnings keep their own level. Details that say nothing are dropped. -/
def LogEntry.consoleLine? (scope : String) (debug : Bool) (entry : LogEntry) :
    Option ConsoleLine :=
  let details := entry.details.filter Value.toBool
  let line := fun level => ConsoleLine.mk level s!"[{scope}] {entry.message}" details
  match entry.level with
  | .debug => if debug then some (line .error) else none
  | .warn => some (line .warn)
  | _ => some (line .error)

end OperatorConsole
