import EternalAI.Dispatch.Model
import EternalAI.Lib.Except
import EternalAI.Lib.Table

/-!
# Background jobs — the ledger row and the queue

The data of `app/ports/background_jobs.py`, of the table `background_jobs`, and
what the ledger sees of the queue. The queue is Procrastinate: a row of it has a
status and the time of its last start, it moves on its own, and its ids come
from a sequence.

* `Job` — a row of the ledger.
* `State` — the ledger and the queue, with the database clock and the ids drawn
  so far.
* `cancelJob` — the official cancel function of the queue.
-/

namespace EternalAI.Jobs

open Lib
open Dispatch (Str Time Uuid)

/-! ## Vocabulary -/

inductive JobStatus where
  | accepted | running | cancelRequested | succeeded | failed | cancelled
  deriving DecidableEq, Repr

/-- `TERMINAL_STATUSES`. -/
def JobStatus.terminal : JobStatus → Bool
  | .succeeded | .failed | .cancelled => true
  | _ => false

def JobStatus.live : JobStatus → Bool
  | .running | .cancelRequested => true
  | _ => false

inductive ExternalEffect where
  | none | readOnly
  deriving DecidableEq, Repr

/-- `BackgroundJobError`, by its code. -/
inductive JobError where
  | acceptFailed | acceptOutcomeUnknown | idempotencyConflict | limitReached
  | storage
  | cancelledExecution
  deriving DecidableEq, Repr

def maxActiveJobsPerUser : Nat := 5

/-- `MAX_DISPATCHES`, the first dispatch included. -/
def maxDispatches : Nat := 3

def batchSize : Nat := 100

/-- `CLAIM_GRACE`, in microseconds. -/
def claimGrace : Time := 120000000

/-- `HEARTBEAT_STALE`, in microseconds. -/
def heartbeatStale : Time := 60000000

/-! ## Requests and rows -/

structure Owner where
  (tenantId aiUserId : Str)
  deriving DecidableEq

/-- `BackgroundJobAcceptRequest`. -/
structure AcceptRequest where
  owner : Owner
  sessionId : Option Str
  kind : Str
  externalEffect : ExternalEffect
  params : Json
  idempotencyKey : Uuid
  requestFingerprint : List UInt8

/-- A row of `background_jobs`. -/
structure Job where
  jobId : Uuid
  request : AcceptRequest
  status : JobStatus
  (queueJobId attemptCount : Nat)
  claimToken : Option Uuid
  heartbeatAt : Option Time
  dispatchCount : Nat
  resultCode : Option Str
  resultSummary : Option Json
  createdAt : Time
  (startedAt cancelRequestedAt finishedAt : Option Time)
  updatedAt : Time

/-- `BackgroundJobView`. -/
structure JobView where
  jobId : Uuid
  kind : Str
  status : JobStatus
  resultCode : Option Str
  resultSummary : Option Json
  createdAt : Time
  (startedAt cancelRequestedAt finishedAt : Option Time)
  updatedAt : Time

/-- `view_from_row`. -/
def Job.view (job : Job) : JobView where
  jobId := job.jobId
  kind := job.request.kind
  status := job.status
  resultCode := job.resultCode
  resultSummary := job.resultSummary
  createdAt := job.createdAt
  startedAt := job.startedAt
  cancelRequestedAt := job.cancelRequestedAt
  finishedAt := job.finishedAt
  updatedAt := job.updatedAt

structure JobClaim where
  jobId : Uuid
  kind : Str
  params : Json
  claimToken : Uuid
  attemptCount : Nat

structure Acceptance where
  job : JobView
  deduplicated : Bool

structure Cancellation where
  job : JobView
  pending : Bool

/-! ## The queue -/

inductive QueueStatus where
  | todo | doing | succeeded | failed | cancelled | aborted
  deriving DecidableEq, Repr

/-- A row of the queue with its latest `started` event. -/
structure QueueJob where
  status : QueueStatus
  startedAt : Option Time
  abortRequested : Bool
  deriving DecidableEq

def QueueJob.finished (q : QueueJob) : Bool :=
  !(q.status == .todo || q.status == .doing)

def QueueJob.deferred : QueueJob := ⟨.todo, none, false⟩

/-- `procrastinate_cancel_job_v1` without deletion: a row that is queued is
cancelled, one that is being executed is only asked to abort. -/
def cancelJob (abort : Bool) (q : QueueJob) : Option QueueJob :=
  match q.status with
  | .todo => some { q with status := .cancelled, abortRequested := q.abortRequested || abort }
  | .doing => if abort then some { q with abortRequested := true } else none
  | _ => none

/-! ## The state -/

/-- The database: its clock, the ledger, the queue with the next id of its
sequence, and how many UUIDs have been drawn. -/
structure State where
  clock : Time
  jobs : List Job
  queue : Nat → Option QueueJob
  (nextQueueJobId drawn : Nat)

/-- What is decided outside: the UUIDs in the order they are drawn, and the
`CHECK` constraints on the columns that a request or a result fills. -/
structure JobEnv where
  uuid : Nat → Uuid
  requestFits : AcceptRequest → Bool
  resultFits : Str → Option Json → Bool

def State.job (s : State) (jobId : Uuid) : Option Job := lookup Job.jobId jobId s.jobs

/-- `UPDATE … WHERE job_id = …`. -/
def State.updateJob (s : State) (jobId : Uuid) (f : Job → Job) : State :=
  { s with jobs := modify Job.jobId jobId f s.jobs }

def State.setQueue (s : State) (id : Nat) (q : Option QueueJob) : State :=
  { s with queue := fun i => if i = id then q else s.queue i }

/-- `defer_job`: a new queue row under the next id. -/
def State.deferJob (s : State) : Nat × State :=
  (s.nextQueueJobId,
    { s.setQueue s.nextQueueJobId (some .deferred) with
      nextQueueJobId := s.nextQueueJobId + 1 })

end EternalAI.Jobs
