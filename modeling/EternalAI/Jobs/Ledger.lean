import EternalAI.Jobs.Model

/-!
# Background jobs — the ledger

The transactions of `app/infra/jobs/ledger.py` and of
`app/infra/jobs/reconcile.py`. Each of them locks the row of its job or updates
it under a condition, so each is one step here. The queue is read without a
lock: it may have moved on when the official cancel function is called, which
is what the argument `later` says.

* `State.accept`, `State.cancel` — the side of the API.
* `State.claim`, `State.heartbeat`, `State.finalize` — the side of a worker.
* `State.reconcileRow` — one row of the periodic reconcile.
-/

namespace EternalAI.Jobs

open Lib
open Dispatch (Str Time Uuid)

/-! ## Acceptance -/

def Job.accepted (jobId : Uuid) (request : AcceptRequest) (queueJobId : Nat) (now : Time) :
    Job where
  jobId := jobId
  request := request
  status := .accepted
  queueJobId := queueJobId
  attemptCount := 0
  claimToken := none
  heartbeatAt := none
  dispatchCount := 1
  resultCode := none
  resultSummary := none
  createdAt := now
  startedAt := none
  cancelRequestedAt := none
  finishedAt := none
  updatedAt := now

section

variable (job : Job) (s : State)

def State.jobsOf (owner : Owner) : List Job :=
  s.jobs.filter (·.request.owner = owner)

/-- `_accept`: a repeated key is answered with the job it created. -/
def State.accept (env : JobEnv) (request : AcceptRequest) (s : State) :
    Except JobError (Acceptance × State) :=
  match (s.jobsOf request.owner).find? (·.request.idempotencyKey = request.idempotencyKey) with
  | some job => do
    ensure (job.request.requestFingerprint = request.requestFingerprint) .idempotencyConflict
    pure (⟨job.view, true⟩, s)
  | none => do
    ensure (((s.jobsOf request.owner).filter (!·.status.terminal)).length < maxActiveJobsPerUser)
      .limitReached
    let jobId := env.uuid s.drawn
    let (queueJobId, deferred) := s.deferJob
    let job := Job.accepted jobId request queueJobId s.clock
    -- the constraints of the table: its columns, its primary key and its unique queue row
    ensure (env.requestFits request = true ∧ s.job jobId = none ∧
      queueJobId ∉ s.jobs.map Job.queueJobId) .acceptFailed
    pure (⟨job.view, false⟩, { deferred with jobs := s.jobs ++ [job], drawn := s.drawn + 1 })

/-! ## Cancellation -/

def Job.setStatus (now : Time) (status : JobStatus) (resultCode : Option Str) (job : Job) : Job :=
  { job with
    status := status
    resultCode := resultCode
    cancelRequestedAt := some (job.cancelRequestedAt.getD now)
    finishedAt := if status.terminal then some now else none
    updatedAt := now }

/-- `cancel_job` on a queue row that may have moved on since it was read: whether
it was changed, and the queue afterwards. -/
def State.queueCancel (id : Nat) (abort : Bool) (later : Option QueueJob → Option QueueJob) :
    Bool × State :=
  match (later (s.queue id)).bind (cancelJob abort) with
  | some q => (true, s.setQueue id (some q))
  | none => (false, s.setQueue id (later (s.queue id)))

/-- What becomes of a job that is cancelled: its status and result code, and
whether a running execution was asked to stop. -/
def cancelDecision (queue : Option QueueJob) (changed : Bool) : JobStatus × Option Str × Bool :=
  if changed && job.status == .running && queue.any (·.status == .doing) then
    (.cancelRequested, none, true)
  else if changed then (.cancelled, some "cancelled".toList, false)
  -- queue row already finished, missing, or finished concurrently
  else (.cancelled, some "cancelled_after_interrupt".toList, false)

/-- The queue's part of a cancellation: a queue row that has ended is left
alone. -/
def State.cancelInQueue (id : Nat) (later : Option QueueJob → Option QueueJob) : Bool × State :=
  if (s.queue id).any (!·.finished) then s.queueCancel id true later else (false, s)

def State.cancel (owner : Owner) (jobId : Uuid) (later : Option QueueJob → Option QueueJob)
    (s : State) : Option Cancellation × State :=
  match s.job jobId with
  | none => (none, s)
  | some job =>
    if job.request.owner ≠ owner then (none, s)
    else if job.status.terminal || job.status == .cancelRequested then (some ⟨job.view, false⟩, s)
    else
      let (changed, s₁) := s.cancelInQueue job.queueJobId later
      let (status, resultCode, pending) := cancelDecision job (s.queue job.queueJobId) changed
      (some ⟨(job.setStatus s.clock status resultCode).view, pending⟩,
        s₁.updateJob jobId (Job.setStatus s.clock status resultCode))

/-! ## Execution -/

def Job.claimed (token : Uuid) (now : Time) (job : Job) : Job :=
  { job with
    status := .running
    claimToken := some token
    heartbeatAt := some now
    attemptCount := job.attemptCount + 1
    startedAt := some (job.startedAt.getD now)
    updatedAt := now }

def State.claim (env : JobEnv) (jobId : Uuid) (queueJobId : Nat) (s : State) :
    Option JobClaim × State :=
  match s.job jobId with
  | none => (none, s)
  | some job =>
    if job.status ≠ .accepted ∨ job.queueJobId ≠ queueJobId then (none, s)
    else
      let token := env.uuid s.drawn
      (some ⟨jobId, job.request.kind, job.request.params, token, job.attemptCount + 1⟩,
        { s.updateJob jobId (Job.claimed token s.clock) with drawn := s.drawn + 1 })

/-- `_LIVE_EXECUTION`. -/
def Job.held (token : Uuid) : Prop :=
  job.claimToken = some token ∧ job.status.live = true

instance (token : Uuid) : Decidable (job.held token) :=
  inferInstanceAs (Decidable (_ ∧ _))

def Job.beaten (now : Time) (job : Job) : Job := { job with heartbeatAt := some now }

def State.heartbeat (jobId token : Uuid) (s : State) : Option JobStatus × State :=
  match s.job jobId with
  | none => (none, s)
  | some job =>
    if job.held token then (some job.status, s.updateJob jobId (Job.beaten s.clock))
    else (none, s)

/-- `_Final`: what an execution writes in the end. Its status is one of the three
terminal ones. -/
structure Final where
  status : JobStatus
  resultCode : Str
  resultSummary : Option Json
  terminal : status.terminal = true

def Job.finalized (final : Final) (now : Time) (job : Job) : Job :=
  { job with
    status := final.status
    resultCode := some final.resultCode
    resultSummary := final.resultSummary
    finishedAt := some now
    updatedAt := now }

/-- `finalize`. A result that does not fit its columns is refused with the whole
update. -/
def State.finalize (env : JobEnv) (jobId token : Uuid) (final : Final) (s : State) :
    Except JobError (Bool × State) :=
  match s.job jobId with
  | none => .ok (false, s)
  | some job =>
    if job.held token then do
      ensure (env.resultFits final.resultCode final.resultSummary = true) .storage
      pure (true, s.updateJob jobId (Job.finalized final s.clock))
    else .ok (false, s)

/-! ## Reconcile -/

def Job.closed (status : JobStatus) (resultCode : Str) (now : Time) (job : Job) : Job :=
  { job with
    status := status
    resultCode := some resultCode
    finishedAt := some now
    updatedAt := now }

def Job.redispatched (queueJobId : Nat) (now : Time) (job : Job) : Job :=
  { job with
    status := .accepted
    queueJobId := queueJobId
    claimToken := none
    heartbeatAt := none
    dispatchCount := job.dispatchCount + 1
    updatedAt := now }

def acceptedNeedsRecovery (queue : Option QueueJob) (now : Time) : Bool :=
  match queue with
  | none => true
  | some q =>
    if q.finished then true
    else if q.status == .todo then false
    else q.startedAt.all fun started => claimGrace ≤ now - started

/-- The queue's part of a new dispatch: a row that still waits is cancelled. An
old row that is being executed is left alone. -/
def State.dropQueued (id : Nat) (later : Option QueueJob → Option QueueJob) : State :=
  if (s.queue id).any (·.status == .todo) then (s.queueCancel id false later).2 else s

/-- `_redispatch`. The new queue row is unique in the ledger. -/
def State.redispatch (later : Option QueueJob → Option QueueJob) (s : State) :
    Except JobError (Bool × State) :=
  if maxDispatches ≤ job.dispatchCount then
    .ok (true, s.updateJob job.jobId (Job.closed .failed "worker_interrupted".toList s.clock))
  else do
    let (queueJobId, deferred) := (s.dropQueued job.queueJobId later).deferJob
    ensure (queueJobId ∉ s.jobs.map Job.queueJobId) .storage
    pure (true, deferred.updateJob job.jobId (Job.redispatched queueJobId s.clock))

/-- `_reconcile_row`. A row that someone else has locked is skipped. -/
def State.reconcileRow (jobId : Uuid) (locked : Bool)
    (later : Option QueueJob → Option QueueJob) (s : State) : Except JobError (Bool × State) :=
  match s.job jobId with
  | none => .ok (false, s)
  | some job =>
    if locked || job.status.terminal then .ok (false, s)
    else
      let queue := s.queue job.queueJobId
      let stale := job.heartbeatAt.all fun beat => heartbeatStale ≤ s.clock - beat
      match job.status with
      | .cancelRequested =>
        if !stale && queue.any (!·.finished) then .ok (false, s)
        else .ok (true, s.updateJob jobId
          (Job.closed .cancelled "cancelled_after_interrupt".toList s.clock))
      | .accepted =>
        if acceptedNeedsRecovery queue s.clock then s.redispatch job later else .ok (false, s)
      | _ => if stale then s.redispatch job later else .ok (false, s)

/-- The candidates of a batch: the jobs that have not ended, the longest
unchanged first. -/
def State.candidates : List Uuid :=
  (((s.jobs.filter (!·.status.terminal)).insertionSort fun a b => a.updatedAt ≤ b.updatedAt).map
    Job.jobId).take batchSize

end

end EternalAI.Jobs
