import EternalAI.Jobs.Steps
import EternalAI.Lib.Locks

/-!
# Background jobs — acceptance, statement by statement

`accept` is one transaction of several statements: it takes an advisory lock of the owner,
looks for the key, counts the active jobs, and inserts the job with its queue row. Under
read committed, other transactions may commit between any two of these statements, and
only the lock keeps other acceptances away.

* `Server` — the database with its advisory locks. The key of a lock is a hash of the
  owner, so owners may share one.
* `acceptInSession` — the transaction, one action a statement. What it writes becomes
  visible with its commit.
* `ServerRun` — all interleavings. The server may end a transaction at any time, which
  gives up its lock; a transaction that has ended does not commit.
-/

namespace EternalAI.Jobs

open Lib
open Dispatch (Str Time Uuid)

/-! ## The server -/

structure Server where
  db : State
  locks : Locks Nat

/-- The environment of the ledger, with the lock key of an owner
(`hashtextextended('bg-owner:…')`). -/
structure AcceptEnv where
  jobs : JobEnv
  lockKey : Owner → Nat

namespace Server

/-- `pg_advisory_xact_lock`: it waits until the lock is free, or fails. The number of the
transaction is returned. -/
def lock (key : Nat) (s : Server) : Except JobError (Nat × Server) := do
  ensure (s.locks.holder key = none) .acceptFailed
  pure (s.locks.next, { s with locks := s.locks.take key })

/-- The end of a transaction without a commit. -/
def close (key tx : Nat) (s : Server) : Server :=
  if s.locks.holder key = some tx then { s with locks := s.locks.release key } else s

def existing (request : AcceptRequest) (s : Server) : Option Job :=
  (s.db.jobsOf request.owner).find? (·.request.idempotencyKey = request.idempotencyKey)

/-- How many jobs of an owner have not ended. -/
def active (owner : Owner) (s : Server) : Nat :=
  ((s.db.jobsOf owner).filter (!·.status.terminal)).length

/-- The queue row and the ledger row, and the commit. The constraints are those of the
table: its columns, its primary key, its unique queue row and its unique keys. -/
def insert (env : AcceptEnv) (request : AcceptRequest) (tx : Nat) (s : Server) :
    Except JobError (Acceptance × Server) := do
  let key := env.lockKey request.owner
  ensure (s.locks.holder key = some tx) .acceptFailed
  let jobId := env.jobs.uuid s.db.drawn
  let (queueJobId, deferred) := s.db.deferJob
  let job := Job.accepted jobId request queueJobId s.db.clock
  ensure (env.jobs.requestFits request = true ∧ s.db.job jobId = none ∧
    queueJobId ∉ s.db.jobs.map Job.queueJobId ∧ s.existing request = none) .acceptFailed
  pure (⟨job.view, false⟩,
    { db := { deferred with jobs := s.db.jobs ++ [job], drawn := s.db.drawn + 1 }
      locks := s.locks.release key })

end Server

/-! ## The transaction -/

def closeSession (key tx : Nat) : Prog Server JobError Unit :=
  Prog.atomic fun s => .ok ((), s.close key tx)

section

variable (env : AcceptEnv)

/-- What follows when the key is new: the limit, and the insert with its commit. -/
def acceptNew (ack : Ack) (request : AcceptRequest) (tx : Nat) :
    Prog Server JobError Acceptance := do
  let active ← Prog.read (Server.active request.owner)
  if maxActiveJobsPerUser ≤ active then do
    closeSession (env.lockKey request.owner) tx
    .raise .limitReached
  else
    transact ack .acceptOutcomeUnknown .acceptFailed (fun _ => true) (Server.insert env request tx)

def acceptKnown (request : AcceptRequest) (tx : Nat) (job : Job) :
    Prog Server JobError Acceptance := do
  closeSession (env.lockKey request.owner) tx
  Prog.require (job.request.requestFingerprint = request.requestFingerprint) .idempotencyConflict
  pure ⟨job.view, true⟩

/-- `accept`. -/
def acceptInSession (ack : Ack) (request : AcceptRequest) : Prog Server JobError Acceptance := do
  let tx ← Prog.atomic (Server.lock (env.lockKey request.owner))
  let existing ← Prog.read (Server.existing request)
  match existing with
  | some job => acceptKnown env request tx job
  | none => acceptNew env ack request tx

/-! ## Runs -/

/-- A program on the database, which does not touch the locks. -/
def onDb {α : Type} (p : Prog State JobError α) : Prog Server JobError α :=
  p.within Server.db fun db s => { s with db }

/-- The calls of users, workers and reconcilers, with acceptances statement by statement. -/
def serverProgram : JobCall → Prog Server JobError Unit
  | .accepts ack request => (acceptInSession env ack request).discard
  | call => onDb (call.program env.jobs)

/-- No row of the queue has an id that its sequence has not given out. -/
def State.Numbered (s : State) : Prop := ∀ id, s.nextQueueJobId ≤ id → s.queue id = none

/-- What else happens: the queue moves on, and transactions are ended by the server. -/
structure ServerOutside (s s' : Server) : Prop where
  db : Outside s.db s'.db
  numbered : s'.db.Numbered
  next : s'.locks.next = s.locks.next
  holder : ∀ key, s'.locks.holder key = s.locks.holder key ∨ s'.locks.holder key = none

def ServerEmpty (s : Server) : Prop := Empty s.db ∧ s.db.Numbered

/-- Interleavings of the statements of any users, workers and reconcilers. -/
def ServerRun : List Server → Procs Server JobError → Prop :=
  PoolRun ServerEmpty ServerOutside (fun _ p => ∃ call : JobCall, p = serverProgram env call)
    fun _ s => s

end

end EternalAI.Jobs
