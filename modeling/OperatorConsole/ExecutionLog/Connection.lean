import OperatorConsole.ExecutionLog.Schema

/-!
# Connections to the log

A connection is open or closed.  A closed one answers nothing.  Opening it again finds what
a file holds; what was only in memory is gone.

## The log for a runner

`LogAccess` says where the state of a host keeps a connection.  Through it the log takes in
audit entries and answers for the retention of old ones.
-/

namespace OperatorConsole

structure LogConnection where
  database : LogDatabase
  isOpen : Bool
  inFile : Bool
  deriving DecidableEq, Repr

namespace LogConnection

def fresh (inFile : Bool) : LogConnection :=
  ⟨LogDatabase.empty.opened, true, inFile⟩

def close (c : LogConnection) : LogConnection :=
  { c with isOpen := false }

def reopen (c : LogConnection) : LogConnection :=
  if c.inFile then { c with database := c.database.opened, isOpen := true } else fresh false

def log (c : LogConnection) : ExecutionLog :=
  c.database.log.getD .empty

def withLog (c : LogConnection) (log : ExecutionLog) : LogConnection :=
  { c with database := { c.database with log := some log } }

def query (c : LogConnection) (ask : LogDatabase -> α) : Except StorageFailure α :=
  if c.isOpen then .ok (ask c.database) else .error .connectionClosed

def update (c : LogConnection)
    (change : ExecutionLog -> Except StorageFailure (ExecutionLog × α)) :
    Except StorageFailure (LogConnection × α) :=
  if c.isOpen then do
    let (log, answer) ← change c.log
    return (c.withLog log, answer)
  else .error .connectionClosed

end LogConnection

structure LogAccess (σ : Type) where
  read : σ -> LogConnection
  write : LogConnection -> σ -> σ

namespace LogAccess

def ask (access : LogAccess σ) (question : ExecutionLog -> α) : Action σ α :=
  Action.ofHost fun host =>
    let connection := access.read host
    ((connection.query fun _ => question connection.log).mapError .storage, host)

def change (access : LogAccess σ)
    (step : ExecutionLog -> Except StorageFailure (ExecutionLog × α)) : Action σ α :=
  Action.ofHost fun host =>
    match (access.read host).update step with
    | .ok (connection, answer) => (.ok answer, access.write connection host)
    | .error failure => (.error (.storage failure), host)

def insert (access : LogAccess σ) (draft : ExecutionDraft) : Action σ Execution :=
  access.change fun log => log.insert draft

def sink (access : LogAccess σ) : AuditSink σ :=
  fun entry => do
    let _ ← access.insert (.ofEntry entry)

def store (access : LogAccess σ) : AuditStore σ where
  countOlderThan := fun cutoff => access.ask fun log => Number.ofNat (log.countOlderThan cutoff)
  deleteOlderThan := fun cutoff =>
    access.change fun log =>
      let (log, count) := log.deleteOlderThan cutoff
      .ok (log, Number.ofNat count)

end LogAccess

end OperatorConsole
