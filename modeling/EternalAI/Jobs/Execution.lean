import EternalAI.Jobs.Ledger
import EternalAI.Lib.Commit

/-!
# Background jobs — executions and runs

`app/infra/jobs/execution.py`: a worker claims a job, beats while its handler
runs, and writes one final result. The heartbeat task and the wrapper both may
cancel the handler; the first of them leaves its cause. What the handler does,
and when, is not known here.

* `runJob` — one execution.
* `reconcileOnce` — one batch of the reconcile.
* `JobRun` — the interleavings of these with users that submit and cancel, with
  the queue moving on its own, and with workers dying anywhere.
-/

namespace EternalAI.Jobs

open Lib
open Dispatch (Str Time Uuid)

/-! ## One execution -/

/-- Why a handler was cancelled: by its user, or because the execution has lost
the job. -/
inductive Cause where
  | user | lost
  deriving DecidableEq, Repr

/-- Something that happens while the handler runs: the interval of the heartbeat
is over, or the wrapper is cancelled. A heartbeat may be answered only after the
handler has ended. -/
inductive Event where
  | beat (ack : Ack) (late : Bool)
  | abort (cause : Cause)

inductive HandlerEnd where
  | result (code : Str) (summary : Option Json)
  | error (code : Option Str)
  | cancelled

/-- An execution of a queue row, with everything that is decided elsewhere. -/
structure Execution where
  jobId : Uuid
  queueJobId : Nat
  claimAck : Ack
  events : List Event
  handler : HandlerEnd
  finalAck : Ack
  /-- The wrapper is cancelled while it waits for the last beat or the final
  write. -/
  abortedLate : Bool

def Event.isAbort : Event → Bool
  | .abort _ => true
  | .beat _ _ => false

/-- `_CancelCause.set`: the first cause stays. -/
def setCause (cause : Option Cause) (new : Cause) : Option Cause := some (cause.getD new)

/-- The heartbeat task and the wrapper while the handler runs: the cause that is
left in the end. After a beat that cancels the handler there is no further one. -/
def watch (jobId token : Uuid) : List Event → Option Cause → Prog State JobError (Option Cause)
  | [], cause => pure cause
  | .abort new :: rest, cause => watch jobId token rest (setCause cause new)
  | .beat ack late :: rest, cause => do
    let answer ← (transact ack .storage .storage (fun _ => true) fun s =>
      .ok (s.heartbeat jobId token)).attempt
    match answer with
    | .error _ => watch jobId token rest cause
    | .ok status =>
      if late then pure cause
      else match status with
        | none => pure (setCause cause .lost)
        | some .cancelRequested => pure (setCause cause .user)
        | some _ => watch jobId token rest cause

/-- `_outcome`: what is written, unless the execution has lost the job. -/
def outcome (handler : HandlerEnd) (cause : Option Cause) : Option Final :=
  match handler with
  | .cancelled =>
    if cause = some .user then some ⟨.cancelled, "cancelled".toList, none, rfl⟩ else none
  | .error code => some ⟨.failed, code.getD "handler_failed".toList, none, rfl⟩
  | .result code summary => some ⟨.succeeded, code, summary, rfl⟩

/-- `BackgroundJobRunner.run`. -/
def runJob (env : JobEnv) (e : Execution) : Prog State JobError Unit := do
  let claim ← transact e.claimAck .storage .storage (fun _ => true) fun s =>
    .ok (s.claim env e.jobId e.queueJobId)
  match claim with
  | none => pure ()
  | some claim => do
    let cause ← watch claim.jobId claim.claimToken e.events none
    match outcome e.handler cause with
    | none => .raise .cancelledExecution
    | some final => do
      let _ ← transact e.finalAck .storage .storage (fun _ => true)
        (State.finalize env e.jobId claim.claimToken final)
      Prog.require (final.status ≠ .cancelled ∧ e.events.any Event.isAbort = false ∧
        e.abortedLate = false) .cancelledExecution

/-! ## Reconcile -/

structure Batch where
  locked : Uuid → Bool
  later : Uuid → Option QueueJob → Option QueueJob
  ack : Uuid → Ack

/-- The loop of `reconcile_once`. -/
def reconcileRows (batch : Batch) : List Uuid → Nat → Prog State JobError Nat
  | [], changed => pure changed
  | jobId :: rest, changed => do
    let this ← transact (batch.ack jobId) .storage .storage (fun _ => true)
      (State.reconcileRow jobId (batch.locked jobId) (batch.later jobId))
    reconcileRows batch rest (if this then changed + 1 else changed)

def reconcileOnce (batch : Batch) : Prog State JobError Nat := do
  let candidates ← Prog.read State.candidates
  reconcileRows batch candidates 0

/-! ## Runs -/

inductive JobCall where
  | accepts (ack : Ack) (request : AcceptRequest)
  | cancels (ack : Ack) (owner : Owner) (jobId : Uuid) (later : Option QueueJob → Option QueueJob)
  | executes (execution : Execution)
  | reconciles (batch : Batch)

/-- `accept`: only an acceptance that is new is committed. -/
def accept (env : JobEnv) (ack : Ack) (request : AcceptRequest) :
    Prog State JobError Acceptance :=
  transact ack .acceptOutcomeUnknown .acceptFailed (!·.deduplicated) (State.accept env request)

def cancel (ack : Ack) (owner : Owner) (jobId : Uuid)
    (later : Option QueueJob → Option QueueJob) : Prog State JobError (Option Cancellation) :=
  transact ack .storage .storage (fun _ => true) fun s => .ok (s.cancel owner jobId later)

def JobCall.program (env : JobEnv) : JobCall → Prog State JobError Unit
  | .accepts ack request => (accept env ack request).discard
  | .cancels ack owner jobId later => (cancel ack owner jobId later).discard
  | .executes execution => runJob env execution
  | .reconciles batch => (reconcileOnce batch).discard

/-- What else happens: the clock is read anew and the queue moves on, in any way.
Its sequence does not go back. -/
structure Outside (s s' : State) : Prop where
  jobs : s'.jobs = s.jobs
  sequence : s.nextQueueJobId ≤ s'.nextQueueJobId
  drawn : s'.drawn = s.drawn

def Empty (s : State) : Prop := s.jobs = []

/-- Interleavings of any users, workers and reconcilers, from an empty ledger. A
process that dies leaves the database as it is. -/
def JobRun (env : JobEnv) : List State → Procs State JobError → Prop :=
  PoolRun Empty Outside (fun _ p => ∃ call : JobCall, p = call.program env) fun _ s => s

end EternalAI.Jobs
