import EternalAI.Jobs.Execution

/-!
# Background jobs — the steps of the ledger

Whatever users, workers and reconcilers are interleaved, the ledger moves by
whole transactions (`JobStep`). For one job a transaction does one of a few
things (`JobMove`): everything that is proved about a job in a run is proved
from these.

* `JobRun.steps` — the states of every interleaving are a run of such steps.
* `JobStep.move` — what a step does to the row of one job.
-/

namespace EternalAI.Jobs

open Lib
open Dispatch (Str Time Uuid)

variable {env : JobEnv} {s s' : State} {t h : List State} {jobId token : Uuid} {queueJobId : Nat}
  {later : Option QueueJob → Option QueueJob} {job : Job}

/-- A transaction that is no acceptance. -/
inductive WorkStep (env : JobEnv) (s : State) : State → Prop
  | idle : WorkStep env s s
  | cancelled (owner : Owner) (jobId : Uuid) (later : Option QueueJob → Option QueueJob) :
      WorkStep env s (s.cancel owner jobId later).2
  | claimed (jobId : Uuid) (queueJobId : Nat) : WorkStep env s (s.claim env jobId queueJobId).2
  | beaten (jobId token : Uuid) : WorkStep env s (s.heartbeat jobId token).2
  | finalized {s' : State} {jobId token : Uuid} {final : Final} {written : Bool} :
      s.finalize env jobId token final = .ok (written, s') → WorkStep env s s'
  | reconciled {s' : State} {jobId : Uuid} {locked : Bool}
      {later : Option QueueJob → Option QueueJob} {changed : Bool} :
      s.reconcileRow jobId locked later = .ok (changed, s') → WorkStep env s s'

/-- A step of the ledger: time and queue go on outside, a request is accepted, or
one of the other transactions is committed. -/
inductive JobStep (env : JobEnv) : List State → State → Prop
  | outside {s s' : State} {t : List State} : Outside s s' → JobStep env (s :: t) s'
  | accepted {s s' : State} {t : List State} {request : AcceptRequest} {acceptance : Acceptance} :
      s.accept env request = .ok (acceptance, s') → JobStep env (s :: t) s'
  | works {s s' : State} {t : List State} : WorkStep env s s' → JobStep env (s :: t) s'

/-! ## The procedures take only such steps -/

theorem Outside.refl (s : State) : Outside s s := ⟨rfl, Nat.le_refl _, rfl⟩

theorem JobStep.same : JobStep env (s :: t) s := .outside (.refl s)

theorem moves_total {α : Type} {ack : Ack} {unknown refusal : JobError} {wrote : α → Bool}
    {f : State → α × State} (hf : ∀ s, WorkStep env s (f s).2) :
    (transact ack unknown refusal wrote fun s => .ok (f s)).Moves (WorkStep env) := by
  refine Prog.Moves.transact (fun _ => .idle) fun s a s' hOk => ?_
  cases congrArg Prod.snd (Except.ok.inj hOk)
  exact hf s

theorem watch_moves (events : List Event) (cause : Option Cause) :
    (watch jobId token events cause).Moves (WorkStep env) := by
  induction events generalizing cause with
  | nil => exact trivial
  | cons event rest ih =>
    cases event with
    | abort new => exact ih _
    | beat ack late =>
      refine (moves_total fun _ => .beaten jobId token).attempt.seq fun answer => ?_
      cases answer with
      | error e => exact ih _
      | ok status =>
        dsimp only
        split
        · exact trivial
        · split
          · exact trivial
          · exact trivial
          · exact ih _

theorem runJob_moves (e : Execution) : (runJob env e).Moves (WorkStep env) := by
  refine (moves_total fun _ => .claimed e.jobId e.queueJobId).seq fun claim => ?_
  cases claim with
  | none => exact trivial
  | some claim =>
    refine (watch_moves e.events none).seq fun cause => ?_
    cases outcome e.handler cause with
    | none => exact trivial
    | some final =>
      refine (Prog.Moves.transact (fun _ => .idle) fun _ _ _ hOk => .finalized hOk).seq fun _ => ?_
      exact Prog.Moves.require _ _

theorem cancel_moves (ack : Ack) (owner : Owner) (jobId : Uuid)
    (later : Option QueueJob → Option QueueJob) :
    (cancel ack owner jobId later).Moves (WorkStep env) :=
  moves_total fun _ => .cancelled owner jobId later

theorem reconcileRows_moves (batch : Batch) (candidates : List Uuid) (changed : Nat) :
    (reconcileRows batch candidates changed).Moves (WorkStep env) := by
  induction candidates generalizing changed with
  | nil => exact trivial
  | cons jobId rest ih =>
    exact (Prog.Moves.transact (fun _ => .idle) fun _ _ _ hOk => .reconciled hOk).seq fun _ => ih _

theorem reconcileOnce_moves (batch : Batch) : (reconcileOnce batch).Moves (WorkStep env) :=
  (Prog.Moves.read (fun _ => .idle) _).seq fun _ => reconcileRows_moves batch _ 0

theorem jobCall_acts (call : JobCall) :
    Safe Empty (JobStep env) (fun _ _ => True) (call.program env) h := by
  have hWork : ∀ s t s', WorkStep env s s' → JobStep env (s :: t) s' := fun _ _ _ => .works
  cases call with
  | accepts ack request =>
    exact (Safe.transact (fun _ _ => .same) fun _ _ _ _ hOk => .accepted hOk).ended
  | cancels ack owner jobId later =>
    exact (Safe.of_moves hWork (cancel_moves ack owner jobId later) h).ended
  | executes execution => exact Safe.of_moves hWork (runJob_moves execution) h
  | reconciles batch => exact (Safe.of_moves hWork (reconcileOnce_moves batch) h).ended

/-- **Interleavings of users, workers and reconcilers are runs of
transactions.** -/
theorem JobRun.steps {ps : Procs State JobError} (hRun : JobRun env h ps) :
    Run Empty (JobStep env) h := by
  refine (PoolRun.refines (fun _ _ _ => .outside) (fun _ _ _ => .same) ?_ hRun).1
  rintro i p ⟨call, rfl⟩ h' -
  exact jobCall_acts call

/-! ## What the transactions do -/

variable {f : Job → Job}

theorem job_updateJob_self (hf : ∀ job, (f job).jobId = job.jobId) :
    (s.updateJob jobId f).job jobId = (s.job jobId).map f :=
  lookup_modify_self hf

theorem job_updateJob_of_ne (hf : ∀ job, (f job).jobId = job.jobId) {id : Uuid} (hne : id ≠ jobId) :
    (s.updateJob jobId f).job id = s.job id :=
  lookup_modify_of_ne hf hne

structure QueueOnly (id : Nat) (s s' : State) : Prop where
  jobs : s'.jobs = s.jobs
  sequence : s'.nextQueueJobId = s.nextQueueJobId
  drawn : s'.drawn = s.drawn
  elsewhere : ∀ i, i ≠ id → s'.queue i = s.queue i

theorem QueueOnly.refl (id : Nat) (s : State) : QueueOnly id s s := ⟨rfl, rfl, rfl, fun _ _ => rfl⟩

theorem setQueue_only (id : Nat) (q : Option QueueJob) : QueueOnly id s (s.setQueue id q) :=
  ⟨rfl, rfl, rfl, fun _ hne => if_neg hne⟩

theorem queueCancel_only (id : Nat) (abort : Bool) :
    QueueOnly id s (s.queueCancel id abort later).2 := by
  unfold State.queueCancel
  split <;> exact setQueue_only id _

theorem cancelInQueue_only (id : Nat) : QueueOnly id s (s.cancelInQueue id later).2 := by
  unfold State.cancelInQueue
  split
  · exact queueCancel_only id true
  · exact .refl id s

theorem dropQueued_only (id : Nat) : QueueOnly id s (s.dropQueued id later) := by
  unfold State.dropQueued
  split
  · exact queueCancel_only id false
  · exact .refl id s

theorem cancelDecision_status (job : Job) (queue : Option QueueJob) (changed : Bool) :
    (cancelDecision job queue changed).1 = .cancelled ∨
    ((cancelDecision job queue changed).1 = .cancelRequested ∧ job.status = .running) := by
  unfold cancelDecision
  split
  · rename_i hAll
    simp only [Bool.and_eq_true, beq_iff_eq] at hAll
    exact .inr ⟨rfl, hAll.1.2⟩
  · split <;> exact .inl rfl

theorem cancel_cases (s : State) (owner : Owner) (jobId : Uuid)
    (later : Option QueueJob → Option QueueJob) : (s.cancel owner jobId later).2 = s ∨
    ∃ job s₁ status code, s.job jobId = some job ∧ job.status.terminal = false ∧
      (status = .cancelled ∨ (status = .cancelRequested ∧ job.status = .running)) ∧
      QueueOnly job.queueJobId s s₁ ∧
      (s.cancel owner jobId later).2 = s₁.updateJob jobId (Job.setStatus s.clock status code) := by
  unfold State.cancel
  split
  · exact .inl rfl
  · rename_i job hJob
    split
    · exact .inl rfl
    · split
      · exact .inl rfl
      · rename_i hOpen
        rw [Bool.or_eq_true, not_or, Bool.not_eq_true] at hOpen
        exact .inr ⟨job, _, _, _, hJob, hOpen.1, cancelDecision_status _ _ _,
          cancelInQueue_only job.queueJobId, rfl⟩

theorem claim_cases (env : JobEnv) (s : State) (jobId : Uuid) (queueJobId : Nat) :
    s.claim env jobId queueJobId = (none, s) ∨
    ∃ job, s.job jobId = some job ∧ job.status = .accepted ∧ job.queueJobId = queueJobId ∧
      s.claim env jobId queueJobId =
        (some ⟨jobId, job.request.kind, job.request.params, env.uuid s.drawn,
          job.attemptCount + 1⟩,
        { s.updateJob jobId (Job.claimed (env.uuid s.drawn) s.clock) with
          drawn := s.drawn + 1 }) := by
  unfold State.claim
  split
  · exact .inl rfl
  · rename_i job hJob
    split
    · exact .inl rfl
    · rename_i hFits
      rw [not_or, not_not, not_not] at hFits
      exact .inr ⟨job, hJob, hFits.1, hFits.2, rfl⟩

theorem heartbeat_cases (jobId token : Uuid) : s.heartbeat jobId token = (none, s) ∨
    ∃ job, s.job jobId = some job ∧ job.held token ∧
      s.heartbeat jobId token = (some job.status, s.updateJob jobId (Job.beaten s.clock)) := by
  unfold State.heartbeat
  split
  · exact .inl rfl
  · rename_i job hJob
    split
    · exact .inr ⟨job, hJob, ‹_›, rfl⟩
    · exact .inl rfl

theorem finalize_cases {final : Final} {written : Bool}
    (hOk : s.finalize env jobId token final = .ok (written, s')) :
    (written = false ∧ s' = s) ∨ ∃ job, s.job jobId = some job ∧ job.held token ∧
      written = true ∧ s' = s.updateJob jobId (Job.finalized final s.clock) := by
  unfold State.finalize at hOk
  split at hOk
  · cases hOk
    exact .inl ⟨rfl, rfl⟩
  · rename_i job hJob
    split at hOk
    · obtain ⟨-, hEq⟩ := ensure_bind_ok.mp hOk
      cases hEq
      exact .inr ⟨job, hJob, ‹_›, rfl, rfl⟩
    · cases hOk
      exact .inl ⟨rfl, rfl⟩

theorem accept_cases {request : AcceptRequest} {acceptance : Acceptance}
    (hOk : s.accept env request = .ok (acceptance, s')) : s' = s ∨
    (s.job (env.uuid s.drawn) = none ∧ s'.drawn = s.drawn + 1 ∧
      s'.nextQueueJobId = s.nextQueueJobId + 1 ∧
      s'.jobs = s.jobs ++ [Job.accepted (env.uuid s.drawn) request s.nextQueueJobId s.clock]) := by
  unfold State.accept at hOk
  split at hOk
  · obtain ⟨-, hEq⟩ := ensure_bind_ok.mp hOk
    cases hEq
    exact .inl rfl
  · obtain ⟨-, hOk⟩ := ensure_bind_ok.mp hOk
    obtain ⟨⟨-, hNew, -⟩, hEq⟩ := ensure_bind_ok.mp hOk
    cases hEq
    exact .inr ⟨hNew, rfl, rfl, rfl⟩

variable {changed : Bool}

/-- A job that is dispatched again has dispatches left, and gets the next queue
row. -/
theorem redispatch_cases (hOk : s.redispatch job later = .ok (changed, s')) :
    (s' = s.updateJob job.jobId (Job.closed .failed "worker_interrupted".toList s.clock)) ∨
    (job.dispatchCount < maxDispatches ∧ ∃ s₁, QueueOnly job.queueJobId s s₁ ∧
      s' = s₁.deferJob.2.updateJob job.jobId (Job.redispatched s.nextQueueJobId s.clock)) := by
  unfold State.redispatch at hOk
  split at hOk
  · cases hOk
    exact .inl rfl
  · rename_i hLeft
    obtain ⟨-, hEq⟩ := ensure_bind_ok.mp hOk
    cases hEq
    have hOnly : QueueOnly job.queueJobId s (s.dropQueued job.queueJobId later) :=
      dropQueued_only _
    refine .inr ⟨Nat.not_le.mp hLeft, _, hOnly, ?_⟩
    rw [← hOnly.sequence]
    rfl

/-- The write of a row: what its transaction has checked, the store in which the row is
replaced, and by what. -/
inductive JobWrite (env : JobEnv) (s : State) (job : Job) : State → (Job → Job) → Prop
  | marked {s₁ : State} {status : JobStatus} {code : Option Str} :
      job.status.terminal = false →
      status = .cancelled ∨ (status = .cancelRequested ∧ job.status = .running) →
      QueueOnly job.queueJobId s s₁ → JobWrite env s job s₁ (Job.setStatus s.clock status code)
  | claimed : job.status = .accepted →
      JobWrite env s job { s with drawn := s.drawn + 1 } (Job.claimed (env.uuid s.drawn) s.clock)
  | beaten : job.status.live = true → JobWrite env s job s (Job.beaten s.clock)
  | finalized {final : Final} : job.status.live = true →
      JobWrite env s job s (Job.finalized final s.clock)
  | closed {status : JobStatus} {code : Str} : job.status.terminal = false →
      status.terminal = true → JobWrite env s job s (Job.closed status code s.clock)
  | redispatched {s₁ : State} : job.status.terminal = false → job.dispatchCount < maxDispatches →
      QueueOnly job.queueJobId s s₁ →
      JobWrite env s job s₁.deferJob.2 (Job.redispatched s.nextQueueJobId s.clock)

/-- A transaction changes nothing, or it writes the row of one job. -/
def Writes (env : JobEnv) (s s' : State) : Prop :=
  s' = s ∨ ∃ jobId job s₁ f, s.job jobId = some job ∧ JobWrite env s job s₁ f ∧
    s' = s₁.updateJob jobId f

theorem reconcileRow_writes {locked : Bool}
    (hOk : s.reconcileRow jobId locked later = .ok (changed, s')) : Writes env s s' := by
  unfold State.reconcileRow at hOk
  split at hOk
  · cases hOk
    exact .inl rfl
  · rename_i job hJob
    have hId : job.jobId = jobId := lookup_key hJob
    split at hOk
    · cases hOk
      exact .inl rfl
    · rename_i hOpen
      rw [Bool.or_eq_true, not_or, Bool.not_eq_true, Bool.not_eq_true] at hOpen
      have hAgain : ∀ {c}, s.redispatch job later = .ok (c, s') → Writes env s s' := by
        intro c hRe
        rcases redispatch_cases hRe with hFailed | ⟨hLeft, s₁, hOnly, hNext⟩
        · rw [hId] at hFailed
          exact .inr ⟨jobId, job, _, _, hJob, .closed hOpen.2 rfl, hFailed⟩
        · rw [hId] at hNext
          exact .inr ⟨jobId, job, _, _, hJob, .redispatched hOpen.2 hLeft hOnly, hNext⟩
      dsimp only at hOk
      split at hOk
      · -- a cancellation was asked for, and nobody is left to carry it out
        split at hOk
        · cases hOk
          exact .inl rfl
        · cases hOk
          exact .inr ⟨jobId, job, _, _, hJob, .closed hOpen.2 rfl, rfl⟩
      · -- a job that waits is dispatched again where its row of the queue needs recovery
        split at hOk
        · exact hAgain hOk
        · cases hOk
          exact .inl rfl
      · split at hOk
        · exact hAgain hOk
        · cases hOk
          exact .inl rfl

/-- **Every step that is no acceptance writes one row or nothing.** -/
theorem WorkStep.writes (hWork : WorkStep env s s') : Writes env s s' := by
  cases hWork with
  | idle => exact .inl rfl
  | cancelled owner jobId later =>
    refine (cancel_cases s owner jobId later).imp_right ?_
    rintro ⟨job, s₁, status, code, hJob, hOpen, hStatus, hOnly, hEq⟩
    exact ⟨jobId, job, s₁, _, hJob, .marked hOpen hStatus hOnly, hEq⟩
  | claimed jobId queueJobId =>
    rcases claim_cases env s jobId queueJobId with hSame | ⟨job, hJob, hStatus, -, hEq⟩
    · rw [hSame]
      exact .inl rfl
    · rw [hEq]
      exact .inr ⟨jobId, job, _, _, hJob, .claimed hStatus, rfl⟩
  | beaten jobId token =>
    rcases heartbeat_cases jobId token with hSame | ⟨job, hJob, hHeld, hEq⟩
    · rw [hSame]
      exact .inl rfl
    · rw [hEq]
      exact .inr ⟨jobId, job, s, _, hJob, .beaten hHeld.2, rfl⟩
  | finalized hOk =>
    rcases finalize_cases hOk with ⟨-, hSame⟩ | ⟨job, hJob, hHeld, -, hEq⟩
    · exact .inl hSame
    · exact .inr ⟨_, job, s, _, hJob, .finalized hHeld.2, hEq⟩
  | reconciled hOk => exact reconcileRow_writes hOk

section

variable {s₁ : State} (hWrite : JobWrite env s job s₁ f)

include hWrite

theorem JobWrite.jobs : s₁.jobs = s.jobs := by
  cases hWrite with
  | marked _ _ hOnly | redispatched _ _ hOnly => exact hOnly.jobs
  | _ => rfl

theorem JobWrite.keyed (row : Job) : (f row).jobId = row.jobId := by
  cases hWrite <;> rfl

theorem JobWrite.sequences : s.drawn ≤ s₁.drawn ∧ s.nextQueueJobId ≤ s₁.nextQueueJobId := by
  cases hWrite with
  | marked _ _ hOnly => exact ⟨hOnly.drawn.ge, hOnly.sequence.ge⟩
  | redispatched _ _ hOnly => exact ⟨hOnly.drawn.ge, hOnly.sequence.ge.trans (Nat.le_succ _)⟩
  | claimed => exact ⟨Nat.le_succ _, Nat.le_refl _⟩
  | _ => exact ⟨Nat.le_refl _, Nat.le_refl _⟩

end

/-! ## One job -/

/-- What a step from `s` to `s'` may do to the row of one job. -/
inductive JobMove (env : JobEnv) (s s' : State) : Option Job → Option Job → Prop
  | kept {row : Option Job} : JobMove env s s' row row
  | accepted {jobId : Uuid} {request : AcceptRequest} {now : Time} :
      s.nextQueueJobId < s'.nextQueueJobId →
      JobMove env s s' none (some (Job.accepted jobId request s.nextQueueJobId now))
  | written {job : Job} {s₁ : State} {f : Job → Job} : JobWrite env s job s₁ f →
      s'.drawn = s₁.drawn → s'.nextQueueJobId = s₁.nextQueueJobId →
      JobMove env s s' (some job) (some (f job))

/-- **What a step does to the row of a job.** -/
theorem JobStep.move (hStep : JobStep env (s :: t) s') (id : Uuid) :
    JobMove env s s' (s.job id) (s'.job id) := by
  cases hStep with
  | outside hOut =>
    have hJob : s'.job id = s.job id := by rw [State.job, State.job, hOut.jobs]
    rw [hJob]
    exact .kept
  | @accepted _ _ _ request _ hOk =>
    rcases accept_cases hOk with rfl | ⟨hNew, -, hSeq, hJobs⟩
    · exact .kept
    · have hLook : s'.job id = (s.job id).or
          (if env.uuid s.drawn = id then some (Job.accepted (env.uuid s.drawn) request
            s.nextQueueJobId s.clock) else none) := by
        rw [State.job, hJobs]
        exact lookup_insert
      rw [hLook]
      by_cases hId : env.uuid s.drawn = id
      · -- the primary key has refused the insert of an id that is there
        rw [if_pos hId, ← hId, hNew]
        exact .accepted (hSeq ▸ Nat.lt_succ_self _)
      · rw [if_neg hId, Option.or_none]
        exact .kept
  | works hWork =>
    rcases hWork.writes with rfl | ⟨jobId, job, s₁, f, hJob, hWrite, rfl⟩
    · exact .kept
    · -- only the row of `jobId` is replaced
      have hSame : ∀ id, s₁.job id = s.job id := fun _ => by
        rw [State.job, State.job, hWrite.jobs]
      by_cases hId : id = jobId
      · subst hId
        rw [job_updateJob_self hWrite.keyed, hSame, hJob]
        exact .written hWrite rfl rfl
      · rw [job_updateJob_of_ne hWrite.keyed hId, hSame]
        exact .kept

theorem JobStep.onward (hStep : JobStep env (s :: t) s') :
    s.drawn ≤ s'.drawn ∧ s.nextQueueJobId ≤ s'.nextQueueJobId := by
  cases hStep with
  | outside hOut => exact ⟨hOut.drawn.ge, hOut.sequence⟩
  | accepted hOk =>
    rcases accept_cases hOk with rfl | ⟨-, hDrawn, hSeq, -⟩
    · exact ⟨Nat.le_refl _, Nat.le_refl _⟩
    · exact ⟨hDrawn ▸ Nat.le_succ _, hSeq ▸ Nat.le_succ _⟩
  | works hWork =>
    rcases hWork.writes with rfl | ⟨jobId, job, s₁, f, -, hWrite, rfl⟩
    · exact ⟨Nat.le_refl _, Nat.le_refl _⟩
    · exact hWrite.sequences

end EternalAI.Jobs
