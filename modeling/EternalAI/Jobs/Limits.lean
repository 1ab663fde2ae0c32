import EternalAI.Jobs.Acceptance
import EternalAI.Jobs.Safety

/-!
# Background jobs — one job for a key, and no more than the limit

An acceptance that commits has held its lock since before it looked and counted. All that
time no other acceptance of the owner has committed, and the other transactions add no job
and revive none: what it saw still holds.

* `ServerStep` — the steps of a server.
* `Server.Sound`, `Server.Later` — what holds of a server, and what has become of an earlier
  one.
* `ledger_refined` — the acceptances of every interleaving are the acceptances in one step
  of `Jobs/Ledger.lean`.
* `acceptances_limited` — the whole.
-/

namespace EternalAI.Jobs

open Lib List Prog
open Dispatch (Str Time Uuid)

variable {env : AcceptEnv} {s s' : State} {x y : Server} {t : List Server}
  {request : AcceptRequest} {job job' : Job} {tx : Nat}

/-! ## Jobs that stay -/

/-- A job goes on: it is the same request, and if it has ended it does not live again. -/
structure Job.Onward (job job' : Job) : Prop where
  jobId : job'.jobId = job.jobId
  request : job'.request = job.request
  terminal : job.status.terminal = true → job'.status.terminal = true

abbrev Onward : List Job → List Job → Prop := List.Forall₂ Job.Onward

theorem Job.Onward.refl (job : Job) : job.Onward job := ⟨rfl, rfl, id⟩

theorem Job.Onward.trans {job'' : Job} (hFirst : job.Onward job') (hThen : job'.Onward job'') :
    job.Onward job'' :=
  ⟨hThen.jobId.trans hFirst.jobId, hThen.request.trans hFirst.request,
    fun hEnd => hThen.terminal (hFirst.terminal hEnd)⟩

theorem Onward.refl (jobs : List Job) : Onward jobs jobs :=
  forall₂_same.mpr fun job _ => .refl job

theorem Onward.trans {a b c : List Job} (hab : Onward a b) (hbc : Onward b c) : Onward a c := by
  induction hab generalizing c with
  | nil => exact hbc
  | cons hFirst _ ih =>
    cases hbc with
    | cons hThen hRest => exact .cons (hFirst.trans hThen) (ih hRest)

theorem Job.Onward.of_open (hOpen : job.status.terminal = false) (hId : job'.jobId = job.jobId)
    (hRequest : job'.request = job.request) : job.Onward job' :=
  ⟨hId, hRequest, fun hEnd => by rw [hOpen] at hEnd; cases hEnd⟩

variable {jobId : Uuid} {jobs' : List Job} {f : Job → Job}

theorem onward_update (hIds : (s.jobs.map Job.jobId).Nodup) (hJob : s.job jobId = some job)
    (hf : job.Onward (f job)) : Onward s.jobs (modify Job.jobId jobId f s.jobs) := by
  refine forall₂_map_right_iff.mpr (forall₂_same.mpr fun x hx => ?_)
  split
  · rename_i hId
    -- ids are unique, so the row that is rewritten is the one that was loaded
    have hFound : s.job x.jobId = some x := lookup_of_mem hIds hx
    rw [hId, hJob] at hFound
    rw [← Option.some.inj hFound]
    exact hf
  · exact .refl x

/-- Cancellations, executions and reconciles add no job and revive none. -/
theorem WorkStep.onward (hIds : (s.jobs.map Job.jobId).Nodup) (hWork : WorkStep env.jobs s s') :
    Onward s.jobs s'.jobs := by
  rcases hWork.writes with rfl | ⟨jobId, job, s₁, f, hJob, hWrite, rfl⟩
  · exact .refl _
  · rw [State.updateJob, hWrite.jobs]
    refine onward_update hIds hJob ?_
    cases hWrite with
    | marked hOpen | closed hOpen | redispatched hOpen => exact .of_open hOpen rfl rfl
    | claimed hStatus => exact .of_open (by rw [hStatus]; rfl) rfl rfl
    | beaten => exact ⟨rfl, rfl, id⟩
    | @finalized final => exact ⟨rfl, rfl, fun _ => final.terminal⟩

theorem Onward.kept {jobs : List Job} (hOnward : Onward jobs jobs') (hMem : job ∈ jobs) :
    ∃ job' ∈ jobs', job.Onward job' := by
  obtain ⟨i, hi, rfl⟩ := mem_iff_getElem.mp hMem
  have hi' : i < jobs'.length := hOnward.length_eq ▸ hi
  exact ⟨jobs'[i], getElem_mem hi', hOnward.get hi hi'⟩

theorem Onward.mem {jobs : List Job} (hOnward : Onward jobs jobs') (hMem : job' ∈ jobs') :
    ∃ job ∈ jobs, job.Onward job' := by
  obtain ⟨i, hi, rfl⟩ := mem_iff_getElem.mp hMem
  have hi' : i < jobs.length := hOnward.length_eq ▸ hi
  exact ⟨jobs[i], getElem_mem hi', hOnward.get hi' hi⟩

variable {α : Type}

theorem Onward.map_eq {f : Job → α} (hf : ∀ {job job'}, job.Onward job' → f job' = f job)
    {jobs : List Job} (hOnward : Onward jobs jobs') : jobs'.map f = jobs.map f := by
  induction hOnward with
  | nil => rfl
  | cons hFirst _ ih => rw [map_cons, map_cons, hf hFirst, ih]

theorem Onward.jobsOf (hOnward : Onward s.jobs s'.jobs) (owner : Owner) :
    Onward (s.jobsOf owner) (s'.jobsOf owner) := by
  refine rel_filter (fun job job' hOn => ?_) hOnward
  simp only [decide_eq_true_eq, hOn.request]

theorem Onward.active_le {jobs : List Job} (hOnward : Onward jobs jobs') :
    (jobs'.filter (!·.status.terminal)).length ≤ (jobs.filter (!·.status.terminal)).length := by
  induction hOnward with
  | nil => exact Nat.le_refl _
  | @cons job job' _ _ hFirst _ ih =>
    rw [filter_cons, filter_cons]
    by_cases hEnd : job.status.terminal = true
    · -- a job that has ended was not counted, and is not counted again
      rw [hEnd, hFirst.terminal hEnd]
      exact ih
    · rw [Bool.not_eq_true] at hEnd
      rw [hEnd]
      split
      · exact Nat.succ_le_succ ih
      · exact Nat.le_succ_of_le ih

theorem Onward.find_none {jobs : List Job} (hOnward : Onward jobs jobs') {key : Uuid}
    (hNone : jobs.find? (·.request.idempotencyKey = key) = none) :
    jobs'.find? (·.request.idempotencyKey = key) = none := by
  rw [find?_eq_none] at hNone ⊢
  intro job' hMem
  obtain ⟨job, hJob, hOn⟩ := hOnward.mem hMem
  rw [hOn.request]
  exact hNone job hJob

/-! ## Steps of a server -/

/-- A step of a server. An insert is made by a transaction that has its number since
before it looked for the key and counted. -/
inductive ServerStep (env : AcceptEnv) : List Server → Server → Prop
  | works {x : Server} {t : List Server} {db : State} : WorkStep env.jobs x.db db →
      ServerStep env (x :: t) { x with db }
  | outside {x y : Server} {t : List Server} : ServerOutside x y → ServerStep env (x :: t) y
  | locks {x : Server} {t : List Server} {key : Nat} :
      ServerStep env (x :: t) { x with locks := x.locks.take key }
  | unlocks {x : Server} {t : List Server} {key : Nat} :
      ServerStep env (x :: t) { x with locks := x.locks.release key }
  | inserts {x y looked counted : Server} {t : List Server} {request : AcceptRequest} {tx : Nat}
      {acceptance : Acceptance} : looked ∈ x :: t → tx < looked.locks.next →
      looked.existing request = none → counted ∈ x :: t → tx < counted.locks.next →
      counted.active request.owner < maxActiveJobsPerUser →
      x.insert env request tx = .ok (acceptance, y) → ServerStep env (x :: t) y

theorem ServerStep.same (x : Server) (t : List Server) : ServerStep env (x :: t) x := .works .idle

structure Inserts (env : AcceptEnv) (request : AcceptRequest) (tx : Nat) (x y : Server)
    (job : Job) : Prop where
  held : x.locks.holder (env.lockKey request.owner) = some tx
  new : x.existing request = none
  fresh : x.db.job job.jobId = none
  row : job = Job.accepted (env.jobs.uuid x.db.drawn) request x.db.nextQueueJobId x.db.clock
  locks : y.locks = x.locks.release (env.lockKey request.owner)
  jobs : y.db.jobs = x.db.jobs ++ [job]
  sequence : y.db.nextQueueJobId = x.db.nextQueueJobId + 1
  queue : ∀ i, y.db.queue i = if i = x.db.nextQueueJobId then some .deferred else x.db.queue i

variable {acceptance : Acceptance}

theorem insert_ok (hOk : x.insert env request tx = .ok (acceptance, y)) :
    ∃ job, Inserts env request tx x y job := by
  obtain ⟨hHolds, hOk⟩ := ensure_bind_ok.mp hOk
  obtain ⟨⟨-, hFresh, -, hNew⟩, hOk⟩ := ensure_bind_ok.mp hOk
  cases hOk
  exact ⟨_, hHolds, hNew, hFresh, rfl, rfl, rfl, rfl, fun _ => rfl⟩

/-! ## What has become of an earlier server -/

/-- The locks have moved on, no job is lost, and where a transaction still holds its lock,
no job of an owner under it has been added. -/
structure Server.Later (env : AcceptEnv) (x y : Server) : Prop where
  locks : x.locks.Later y.locks
  kept : ∀ job ∈ x.db.jobs, ∃ job' ∈ y.db.jobs, job.Onward job'
  jobs : ∀ owner tx, x.locks.holder (env.lockKey owner) = some tx →
    y.locks.holder (env.lockKey owner) = some tx → Onward (x.db.jobsOf owner) (y.db.jobsOf owner)

theorem Server.Later.refl (x : Server) : x.Later env x :=
  ⟨.refl _, fun job hJob => ⟨job, hJob, .refl job⟩, fun _ _ _ _ => .refl _⟩

theorem Server.Later.trans {z : Server} (hxy : x.Later env y) (hyz : y.Later env z) :
    x.Later env z := by
  refine ⟨hxy.locks.trans hyz.locks, fun job hJob => ?_, fun owner tx hx hz => ?_⟩
  · obtain ⟨job₁, hJob₁, hOn₁⟩ := hxy.kept job hJob
    obtain ⟨job₂, hJob₂, hOn₂⟩ := hyz.kept job₁ hJob₁
    exact ⟨job₂, hJob₂, hOn₁.trans hOn₂⟩
  -- a number is given once, so who holds the lock at both ends has held it in between
  have hTx : tx < y.locks.next := (x.locks.bounded _ tx hx).trans_le hxy.locks.next
  have hy := hyz.locks.held hTx hz
  exact (hxy.jobs owner tx hx hy).trans (hyz.jobs owner tx hy hz)

/-! ## The queue -/

structure State.Queues (s : State) : Prop where
  queued : ∀ job ∈ s.jobs, job.queueJobId < s.nextQueueJobId
  numbered : s.Numbered

variable {s₁ : State} {id : Nat}

theorem State.Queues.only (hQueues : s.Queues) (hOnly : QueueOnly id s s₁)
    (hId : id < s.nextQueueJobId) : s₁.Queues := by
  refine ⟨fun job hMem => ?_, fun i hi => ?_⟩
  · rw [hOnly.jobs] at hMem
    rw [hOnly.sequence]
    exact hQueues.queued job hMem
  · rw [hOnly.sequence] at hi
    rw [hOnly.elsewhere i (by omega)]
    exact hQueues.numbered i hi

theorem State.Queues.deferJob (hQueues : s.Queues) : s.deferJob.2.Queues := by
  refine ⟨fun job hMem => Nat.lt_succ_of_lt (hQueues.queued job hMem), fun i hi => ?_⟩
  have hi : s.nextQueueJobId + 1 ≤ i := hi
  show (if i = s.nextQueueJobId then _ else s.queue i) = none
  rw [if_neg (by omega)]
  exact hQueues.numbered i (by omega)

theorem State.Queues.update (hQueues : s.Queues)
    (hf : ∀ job ∈ s.jobs, (f job).queueJobId < s.nextQueueJobId) :
    (s.updateJob jobId f).Queues := by
  refine ⟨fun job hMem => ?_, hQueues.numbered⟩
  obtain ⟨old, hOld, rfl⟩ := mem_map.mp hMem
  split
  · exact hf old hOld
  · exact hQueues.queued old hOld

theorem WorkStep.queues (hQueues : s.Queues) (hWork : WorkStep env.jobs s s') : s'.Queues := by
  rcases hWork.writes with rfl | ⟨jobId, job, s₁, f, hJob, hWrite, rfl⟩
  · exact hQueues
  · have hPlace := hQueues.queued job (lookup_mem hJob)
    cases hWrite with
    | marked _ _ hOnly =>
      have hAfter := hQueues.only hOnly hPlace
      exact hAfter.update hAfter.queued
    | redispatched _ _ hOnly =>
      -- the job gets the next place, which the sequence has just passed
      refine (hQueues.only hOnly hPlace).deferJob.update fun _ _ => ?_
      exact Nat.lt_succ_of_le hOnly.sequence.ge
    | claimed => exact State.Queues.update ⟨hQueues.queued, hQueues.numbered⟩ hQueues.queued
    | beaten | finalized | closed => exact hQueues.update hQueues.queued

/-! ## What holds of a server -/

def Job.ownerKey (job : Job) : Owner × Uuid := (job.request.owner, job.request.idempotencyKey)

structure Server.Sound (x : Server) : Prop where
  ids : (x.db.jobs.map Job.jobId).Nodup
  keys : (x.db.jobs.map Job.ownerKey).Nodup
  limit : ∀ owner, x.active owner ≤ maxActiveJobsPerUser
  queues : x.db.Queues

theorem Server.Sound.of_empty (hEmpty : ServerEmpty x) : x.Sound := by
  obtain ⟨hJobs, hNumbered⟩ := hEmpty
  have hNil : x.db.jobs = [] := hJobs
  refine ⟨?_, ?_, fun owner => ?_, ⟨?_, hNumbered⟩⟩
  · rw [hNil]
    exact nodup_nil
  · rw [hNil]
    exact nodup_nil
  · rw [Server.active, State.jobsOf, hNil]
    exact Nat.zero_le _
  · intro job hJob
    rw [hNil] at hJob
    cases hJob

theorem Server.Sound.onward (hSound : x.Sound) (hOnward : Onward x.db.jobs y.db.jobs)
    (hQueues : y.db.Queues) : y.Sound := by
  refine ⟨?_, ?_, fun owner => (hOnward.jobsOf owner).active_le.trans (hSound.limit owner), hQueues⟩
  · rw [hOnward.map_eq fun hOn => hOn.jobId]
    exact hSound.ids
  · rw [hOnward.map_eq fun {job job'} hOn => by rw [Job.ownerKey, hOn.request]; rfl]
    exact hSound.keys

/-- What an acceptance has looked for is still not there, and what it has counted is no
less than what there is. -/
theorem still_free {looked counted : Server} (hLooked : looked.Later env x)
    (hCounted : counted.Later env x) (hTx : tx < looked.locks.next)
    (hTx' : tx < counted.locks.next)
    (hHolds : x.locks.holder (env.lockKey request.owner) = some tx)
    (hNone : looked.existing request = none)
    (hFew : counted.active request.owner < maxActiveJobsPerUser) :
    x.existing request = none ∧ x.active request.owner < maxActiveJobsPerUser := by
  have hLookedJobs := hLooked.jobs request.owner tx (hLooked.locks.held hTx hHolds) hHolds
  have hCountedJobs := hCounted.jobs request.owner tx (hCounted.locks.held hTx' hHolds) hHolds
  exact ⟨hLookedJobs.find_none hNone, hCountedJobs.active_le.trans_lt hFew⟩

theorem jobsOf_append {jobs : List Job} (owner : Owner) :
    (jobs ++ [job]).filter (·.request.owner = owner) =
      jobs.filter (·.request.owner = owner) ++ if job.request.owner = owner then [job] else [] := by
  split <;> simp_all

theorem ownerKey_fresh (hNone : x.existing request = none) :
    (request.owner, request.idempotencyKey) ∉ x.db.jobs.map Job.ownerKey := by
  intro hMem
  obtain ⟨job, hJob, hKey⟩ := mem_map.mp hMem
  obtain ⟨hOwner, hId⟩ := Prod.mk.inj hKey
  have hOf : job ∈ x.db.jobsOf request.owner :=
    mem_filter.mpr ⟨hJob, decide_eq_true hOwner⟩
  exact find?_eq_none.mp hNone job hOf (decide_eq_true hId)

theorem Server.Sound.insert (hSound : x.Sound)
    (hFew : x.active request.owner < maxActiveJobsPerUser)
    (hInserts : Inserts env request tx x y job) : y.Sound := by
  have hRequest : job.request = request := by rw [hInserts.row]; rfl
  have hOpen : job.status.terminal = false := by rw [hInserts.row]; rfl
  refine ⟨?_, ?_, fun owner => ?_, ⟨fun other hMem => ?_, fun i hi => ?_⟩⟩
  · -- the primary key has refused a second row under the id
    rw [hInserts.jobs, map_append]
    refine nodup_append_new hSound.ids fun hMem => ?_
    obtain ⟨old, hOld, hId⟩ := mem_map.mp hMem
    have hFound : x.db.job old.jobId = some old := lookup_of_mem hSound.ids hOld
    rw [hId] at hFound
    cases hFound.symm.trans hInserts.fresh
  · rw [hInserts.jobs, map_append]
    refine nodup_append_new hSound.keys ?_
    rw [Job.ownerKey, hRequest]
    exact ownerKey_fresh hInserts.new
  · rw [Server.active, State.jobsOf, hInserts.jobs, jobsOf_append, filter_append,
      length_append, hRequest]
    by_cases hOwner : request.owner = owner
    · -- there was room for one more, and the new job is active
      subst hOwner
      rw [if_pos rfl, filter_cons, hOpen]
      exact hFew
    · rw [if_neg hOwner]
      exact hSound.limit owner
  · rw [hInserts.sequence]
    rw [hInserts.jobs] at hMem
    rcases mem_append.mp hMem with hOld | hNew
    · exact Nat.lt_succ_of_lt (hSound.queues.queued other hOld)
    · rw [mem_singleton.mp hNew, hInserts.row]
      exact Nat.lt_succ_self _
  · rw [hInserts.sequence] at hi
    rw [hInserts.queue, if_neg (by omega)]
    exact hSound.queues.numbered i (by omega)

theorem Server.Later.insert (hInserts : Inserts env request tx x y job) : x.Later env y := by
  refine ⟨hInserts.locks ▸ Locks.Later.release _ _, fun old hOld => ⟨old, ?_, .refl old⟩,
    fun owner tx' _ hAfter => ?_⟩
  · rw [hInserts.jobs]
    exact mem_append_left _ hOld
  have hRequest : job.request = request := by rw [hInserts.row]; rfl
  -- the commit has given the owner's lock up, so whoever still holds one has another's
  have hOther : request.owner ≠ owner := by
    rintro rfl
    rw [hInserts.locks, Locks.release_self] at hAfter
    cases hAfter
  rw [State.jobsOf, State.jobsOf, hInserts.jobs, jobsOf_append, hRequest, if_neg hOther,
    append_nil]
  exact .refl _

theorem Server.Later.onward (hLocks : x.locks.Later y.locks)
    (hOnward : Onward x.db.jobs y.db.jobs) : x.Later env y :=
  ⟨hLocks, fun _ hJob => hOnward.kept hJob, fun owner _ _ _ => hOnward.jobsOf owner⟩

/-- **What holds along a run of a server.** -/
theorem server_sound_later (hRun : Run ServerEmpty (ServerStep env) (x :: t)) :
    ∀ z ∈ x :: t, z.Sound ∧ z.Later env x := by
  refine hRun.mem_inv_rel (fun _ => Server.Sound.of_empty) Server.Later.refl Server.Later.trans ?_
  intro x t y hPast hStep
  have hSound := (hPast x mem_cons_self).1
  cases hStep with
  | works hWork =>
    have hOnward := hWork.onward hSound.ids
    exact ⟨hSound.onward hOnward (hWork.queues hSound.queues), .onward (.refl _) hOnward⟩
  | outside hOut =>
    have hOnward : Onward x.db.jobs y.db.jobs := hOut.db.jobs ▸ Onward.refl _
    refine ⟨hSound.onward hOnward ⟨fun job hMem => ?_, hOut.numbered⟩,
      .onward (.released hOut.next.symm hOut.holder) hOnward⟩
    rw [hOut.db.jobs] at hMem
    exact (hSound.queues.queued job hMem).trans_le hOut.db.sequence
  | locks => exact ⟨hSound.onward (.refl _) hSound.queues, .onward (.take _ _) (.refl _)⟩
  | unlocks => exact ⟨hSound.onward (.refl _) hSound.queues, .onward (.release _ _) (.refl _)⟩
  | inserts hLooked hTx hNone hCounted hTx' hFew hOk =>
    -- the count was taken in an earlier state; under the lock it is still an upper bound
    obtain ⟨job, hInserts⟩ := insert_ok hOk
    obtain ⟨-, hRoom⟩ := still_free (hPast _ hLooked).2 (hPast _ hCounted).2 hTx hTx'
      hInserts.held hNone hFew
    exact ⟨hSound.insert hRoom hInserts, .insert hInserts⟩

/-! ## The procedures take only such steps -/

variable {ps : Procs Server JobError}

section Programs

variable {ack : Ack} {h : List Server}

abbrev ServerActs (env : AcceptEnv) {α : Type} (p : Prog Server JobError α) (h : List Server) :
    Prop :=
  Safe ServerEmpty (ServerStep env) (fun _ _ => True) p h

/-- A transaction had its number when it saw something. -/
def Saw (tx : Nat) (P : Server → Prop) (h : List Server) : Prop :=
  ∃ x ∈ h, tx < x.locks.next ∧ P x

theorem Saw.mono {P : Server → Prop} {h' : List Server} (hSaw : Saw tx P h) (hExt : h <:+ h') :
    Saw tx P h' := by
  obtain ⟨x, hx, hRest⟩ := hSaw
  exact ⟨x, hExt.subset hx, hRest⟩

theorem saw_read {f : Server → α} (hNumber : Saw tx (fun _ => True) h) :
    Safe ServerEmpty (ServerStep env) (fun a => Saw tx (f · = a))
      (Prog.read f : Prog Server JobError α) h := by
  refine Safe.read ServerStep.same fun x t hSuf hRun => ?_
  obtain ⟨z, hz, hTx, -⟩ := hNumber
  have hLater := (server_sound_later hRun z (hSuf.subset hz)).2
  exact ⟨x, mem_cons_self, hTx.trans_le hLater.locks.next, rfl⟩

theorem closeSession_acts (key tx : Nat) : ServerActs env (closeSession key tx) h := by
  refine Safe.atomic ServerStep.same fun x t _ _ a y hOk => ?_
  cases hOk
  refine ⟨?_, trivial⟩
  rw [Server.close]
  split
  · exact .unlocks
  · exact .same x t

theorem acceptNew_acts (hNumber : Saw tx (fun _ => True) h)
    (hLooked : Saw tx (·.existing request = none) h) :
    ServerActs env (acceptNew env ack request tx) h := by
  refine Safe.seq (saw_read hNumber) fun active h' hExt hCounted => ?_
  refine Safe.ite (fun _ => ?_) fun hFew => ?_
  · exact Safe.andThen (closeSession_acts _ tx) fun _ => trivial
  · refine Safe.transactWith ServerStep.same (fun _ _ _ _ _ => trivial)
      fun x t hSuf _ acceptance y hOk => ⟨?_, trivial⟩
    obtain ⟨looked, hl, hTx, hNone⟩ := hLooked.mono (hExt.trans hSuf)
    obtain ⟨counted, hc, hTx', rfl⟩ := hCounted.mono hSuf
    exact .inserts hl hTx hNone hc hTx' (Nat.not_le.mp hFew) hOk

theorem acceptInSession_acts : ServerActs env (acceptInSession env ack request) h := by
  refine Safe.seq (P := fun tx => Saw tx fun _ => True) ?_ fun tx h' _ hNumber => ?_
  · refine Safe.atomic ServerStep.same fun x t _ _ tx y hOk => ?_
    obtain ⟨-, hEq⟩ := ensure_bind_ok.mp hOk
    cases hEq
    exact ⟨.locks, _, mem_cons_self, Nat.lt_succ_self _, trivial⟩
  · refine Safe.seq (saw_read hNumber) fun existing h'' hExt hLooked => ?_
    cases existing with
    | none => exact acceptNew_acts (hNumber.mono hExt) hLooked
    | some job =>
      refine Safe.andThen (closeSession_acts _ tx) fun _ => ?_
      exact Safe.require_seq fun _ => trivial

theorem onDb_acts {p : Prog State JobError α} (hp : p.Moves (WorkStep env.jobs)) :
    ServerActs env (onDb p) h := by
  refine Safe.of_moves (R := fun x y => ∃ db, WorkStep env.jobs x.db db ∧ y = { x with db }) ?_ ?_ h
  · rintro x t - ⟨db, hWork, rfl⟩
    exact .works hWork
  · exact Prog.Moves.within (fun x db hWork => ⟨db, hWork, rfl⟩) hp

theorem serverProgram_acts (call : JobCall) : ServerActs env (serverProgram env call) h := by
  cases call with
  | accepts ack request => exact acceptInSession_acts.ended
  | cancels ack owner jobId later =>
    refine onDb_acts (Prog.Moves.seq ?_ fun _ => ?_)
    · exact cancel_moves ack owner jobId later
    · exact trivial
  | executes execution => exact onDb_acts (runJob_moves execution)
  | reconciles batch =>
    refine onDb_acts (Prog.Moves.seq ?_ fun _ => ?_)
    · exact reconcileOnce_moves batch
    · exact trivial

/-- **Interleavings of statements are runs of such steps.** -/
theorem ServerRun.steps (hRun : ServerRun env h ps) : Run ServerEmpty (ServerStep env) h := by
  refine (PoolRun.refines (fun _ _ _ => .outside) (fun _ => ServerStep.same) ?_ hRun).1
  rintro i p ⟨call, rfl⟩ h' -
  exact serverProgram_acts call

end Programs

/-- An acceptance of several statements does what the acceptance in one step does where it
commits. -/
theorem insert_accepts (hNone : x.existing request = none)
    (hFew : x.active request.owner < maxActiveJobsPerUser)
    (hOk : x.insert env request tx = .ok (acceptance, y)) :
    x.db.accept env.jobs request = .ok (acceptance, y.db) := by
  obtain ⟨-, hOk⟩ := ensure_bind_ok.mp hOk
  obtain ⟨⟨hFits, hFresh, hQueue, -⟩, hOk⟩ := ensure_bind_ok.mp hOk
  cases hOk
  have hFind : (x.db.jobsOf request.owner).find?
      (·.request.idempotencyKey = request.idempotencyKey) = none := hNone
  rw [State.accept, hFind]
  exact ensure_bind_ok.mpr ⟨hFew, ensure_bind_ok.mpr ⟨⟨hFits, hFresh, hQueue⟩, rfl⟩⟩

/-- The ledger of every interleaving of statements goes through the steps of the ledger. -/
theorem ledger_refined {h : List Server} (hRun : ServerRun env h ps) :
    Run Empty (JobStep env.jobs) (h.map Server.db) := by
  refine Run.map Server.db (fun _ hEmpty => hEmpty.1) ?_ hRun.steps
  intro x t y hBefore hStep
  have hPast := server_sound_later hBefore
  cases hStep with
  | works hWork => exact .works hWork
  | outside hOut => exact .outside hOut.db
  | locks | unlocks => exact .same
  | inserts hLooked hTx hNone hCounted hTx' hFew hOk =>
    obtain ⟨job, hInserts⟩ := insert_ok hOk
    obtain ⟨hFree, hRoom⟩ := still_free (hPast _ hLooked).2 (hPast _ hCounted).2 hTx hTx'
      hInserts.held hNone hFew
    exact .accepted (insert_accepts hFree hRoom hOk)

/-! ## One job for a key -/

theorem existing_of_mem (hSound : x.Sound) (hJob : job ∈ x.db.jobs)
    (hOwner : request.owner = job.request.owner)
    (hKey : request.idempotencyKey = job.request.idempotencyKey) :
    x.existing request = some job := by
  have hSame : job.ownerKey = (request.owner, request.idempotencyKey) := by
    rw [Job.ownerKey, hOwner, hKey]
  cases hFound : x.existing request with
  | none => exact absurd (mem_map.mpr ⟨job, hJob, hSame⟩) (ownerKey_fresh hFound)
  | some found =>
    have hMem := mem_filter.mp (mem_of_find?_eq_some hFound)
    have hFoundId : found.request.idempotencyKey = request.idempotencyKey := by
      simpa using find?_some hFound
    have hFoundKey : found.ownerKey = (request.owner, request.idempotencyKey) :=
      congrArg₂ Prod.mk (of_decide_eq_true hMem.2) hFoundId
    rw [inj_on_of_nodup_map hSound.keys hMem.1 hJob (hFoundKey.trans hSame.symm)]

/-- How a call ends that repeats the key of a job: it has waited for the lock in vain, it
returns the job as it was when it looked, or it is refused. -/
inductive Repeats (request : AcceptRequest) (job : Job) (steps : List (Server × Server)) :
    Except JobError Acceptance → Prop
  | waited : Repeats request job steps (.error .acceptFailed)
  | same {step : Server × Server} {row : Job} :
      request.requestFingerprint = job.request.requestFingerprint → step ∈ steps →
      row ∈ step.1.db.jobs → row.jobId = job.jobId →
        Repeats request job steps (.ok ⟨row.view, true⟩)
  | different : request.requestFingerprint ≠ job.request.requestFingerprint →
      Repeats request job steps (.error .idempotencyConflict)

theorem lock_db (key : Nat) (y : Server) : (Prog.committed (Server.lock key) y).db = y.db := by
  unfold Prog.committed
  split
  · rename_i hOk
    obtain ⟨-, hEq⟩ := ensure_bind_ok.mp hOk
    cases hEq
    rfl
  · rfl

theorem lock_error {key : Nat} {e : JobError} (hFails : y.lock key = .error e) :
    e = .acceptFailed := by
  unfold Server.lock ensure at hFails
  split at hFails <;> cases hFails
  rfl

theorem close_db (key tx : Nat) (y : Server) : (y.close key tx).db = y.db := by
  unfold Server.close
  split <;> rfl

variable {ack : Ack}

theorem ends_repeats {steps : List (Server × Server)} {r : Except JobError Acceptance}
    (hEnds : (acceptInSession env ack request).Ends steps r)
    (hThere : ∀ step ∈ steps, ∃ row, job.Onward row ∧ row ∈ step.1.db.jobs ∧
      step.1.existing request = some row) :
    Repeats request job steps r ∧ ∀ step ∈ steps, step.2.db = step.1.db := by
  obtain ⟨y₀, rest, rfl, ⟨e, hFails, rfl, rfl⟩ | ⟨tx, -, -, hLooks⟩⟩ := hEnds.of_atomic_seq
  · rw [lock_error hFails]
    exact ⟨.waited, forall_mem_singleton.mpr (lock_db _ y₀)⟩
  · -- the second statement looks for the key, and finds the row
    obtain ⟨y₁, rest, rfl, hFinds⟩ := hLooks.of_read
    have hSecond : ∀ {step : Server × Server}, (y₁, y₁) ∈ step :: (y₁, y₁) :: rest :=
      mem_cons_of_mem _ mem_cons_self
    obtain ⟨row, hOn, hRow, hFound⟩ := hThere (y₁, y₁) hSecond
    rw [show y₁.existing request = some row from hFound] at hFinds
    obtain ⟨y₂, rest, rfl, ⟨e, hFails, -⟩ | ⟨u, -, -, hCompares⟩⟩ :=
      Prog.Ends.of_atomic_seq hFinds
    · cases hFails
    · -- the session has been closed, and the fingerprints are compared
      have hDb := lock_db (env.lockKey request.owner) y₀
      have hDb' := close_db (env.lockKey request.owner) tx y₂
      obtain ⟨hOther, rfl, rfl⟩ | ⟨hSame, hReturns⟩ := hCompares.of_require
      · rw [hOn.request] at hOther
        refine ⟨.different (Ne.symm hOther), ?_⟩
        simpa using ⟨hDb, hDb'⟩
      · cases hReturns
        rw [hOn.request] at hSame
        refine ⟨.same hSame.symm hSecond hRow hOn.jobId, ?_⟩
        simpa using ⟨hDb, hDb'⟩

theorem run_repeats (hFree : x.locks.holder (env.lockKey request.owner) = none)
    (hFound : x.existing request = some job) : ((acceptInSession env ack request).run x).1 =
      if job.request.requestFingerprint = request.requestFingerprint then .ok ⟨job.view, true⟩
      else .error .idempotencyConflict := by
  have hLock : (Prog.atomic (Server.lock (env.lockKey request.owner))).run x =
      (.ok x.locks.next, { x with locks := x.locks.take (env.lockKey request.owner) }) := by
    rw [run_atomic, Server.lock, ensure, if_pos hFree]
    rfl
  have hRead : ∀ locks, ({ x with locks } : Server).existing request = some job := fun _ => hFound
  rw [acceptInSession, run_bind_ok hLock, run_bind_ok (run_read _ _), hRead]
  show ((acceptKnown env request x.locks.next job).run _).1 = _
  rw [acceptKnown, closeSession, run_bind_ok (run_atomic _ _), Prog.require]
  split <;> rfl

/-- **What acceptances keep to.** -/
structure Limited (env : AcceptEnv) (h : List Server) : Prop where
  limit : ∀ x ∈ h, ∀ owner, x.active owner ≤ maxActiveJobsPerUser
  key : ∀ x ∈ h, (x.db.jobs.map Job.ownerKey).Nodup
  /-- A call that repeats the key of a job, with all its actions in the history and after
  the job was there, stores nothing. -/
  repeated : ∀ x t, x :: t <:+ h → ∀ job ∈ x.db.jobs, ∀ ack request steps r,
    request.owner = job.request.owner →
    request.idempotencyKey = job.request.idempotencyKey →
    (acceptInSession env ack request).Ends steps r →
    (∀ step ∈ steps, ∃ u, x :: t <:+ step.1 :: u ∧ step.1 :: u <:+ h) →
    Repeats request job steps r ∧ ∀ step ∈ steps, step.2.db = step.1.db
  /-- Where the lock is free, it is answered. -/
  answered : ∀ x ∈ h, ∀ job ∈ x.db.jobs, ∀ ack request, request.owner = job.request.owner →
    request.idempotencyKey = job.request.idempotencyKey →
    x.locks.holder (env.lockKey request.owner) = none →
    ((acceptInSession env ack request).run x).1 =
      if job.request.requestFingerprint = request.requestFingerprint then .ok ⟨job.view, true⟩
      else .error .idempotencyConflict
  /-- The step that stores a job creates its row in the queue. -/
  queued : ∀ x t, x :: t <:+ h → ∀ job ∈ x.db.jobs, ∃ y z u, y :: z :: u <:+ x :: t ∧
    job.jobId ∉ z.db.jobs.map Job.jobId ∧ ∃ row ∈ y.db.jobs, row.jobId = job.jobId ∧
      z.db.queue row.queueJobId = none ∧ y.db.queue row.queueJobId = some .deferred

theorem stored_with_queue {z : Server} {u : List Server} (hSound : z.Sound)
    (hStep : ServerStep env (z :: u) y) (hBefore : jobId ∉ z.db.jobs.map Job.jobId)
    (hAfter : jobId ∈ y.db.jobs.map Job.jobId) :
    ∃ row ∈ y.db.jobs, row.jobId = jobId ∧ z.db.queue row.queueJobId = none ∧
      y.db.queue row.queueJobId = some .deferred := by
  cases hStep with
  | works hWork =>
    rw [(hWork.onward hSound.ids).map_eq fun hOn => hOn.jobId] at hAfter
    exact absurd hAfter hBefore
  | outside hOut =>
    rw [hOut.db.jobs] at hAfter
    exact absurd hAfter hBefore
  | locks | unlocks => exact absurd hAfter hBefore
  | inserts _ _ _ _ _ _ hOk =>
    obtain ⟨job, hInserts⟩ := insert_ok hOk
    rw [hInserts.jobs, map_append, mem_append] at hAfter
    have hPlace : job.queueJobId = z.db.nextQueueJobId := by rw [hInserts.row]; rfl
    refine ⟨job, ?_, ?_, ?_, ?_⟩
    · rw [hInserts.jobs]
      exact mem_append_right _ (mem_singleton_self _)
    · exact (mem_singleton.mp (hAfter.resolve_left hBefore)).symm
    · rw [hPlace]
      exact hSound.queues.numbered _ (Nat.le_refl _)
    · rw [hInserts.queue, if_pos hPlace]

/--
**Acceptances are limited.** In every interleaving of the statements of acceptances with
cancellations, executions and reconciles, no owner has more active jobs than the limit and
no key of an owner has two jobs. A repeated key is answered with its job, or refused if the
content is another. Every job was stored with its row in the queue.
-/
theorem acceptances_limited {h : List Server} {ps : Procs Server JobError}
    (hRun : ServerRun env h ps) : Limited env h := by
  have hSteps := hRun.steps
  obtain ⟨x₀, t₀, rfl⟩ := exists_cons_of_ne_nil hSteps.ne_nil
  have hSound : ∀ x ∈ x₀ :: t₀, x.Sound := fun x hx => (server_sound_later hSteps x hx).1
  refine ⟨fun x hx => (hSound x hx).limit, fun x hx => (hSound x hx).keys, ?_, ?_, ?_⟩
  · -- at each of its actions the call meets a later form of the job, under the same key
    intro x t _ job hJob ack request steps r hOwner hKey hEnds hWithin
    refine ends_repeats hEnds fun step hStep => ?_
    obtain ⟨u, hAfter, hIn⟩ := hWithin step hStep
    have hPart := hSteps.of_suffix hIn
    obtain ⟨row, hRow, hOn⟩ :=
      (server_sound_later hPart x (hAfter.subset mem_cons_self)).2.kept job hJob
    refine ⟨row, hOn, hRow, existing_of_mem (hSound _ (hIn.subset mem_cons_self)) hRow ?_ ?_⟩
    · rw [hOn.request, hOwner]
    · rw [hOn.request, hKey]
  · intro x hx job hJob ack request hOwner hKey hFree
    exact run_repeats hFree (existing_of_mem (hSound x hx) hJob hOwner hKey)
  · -- the first state with the job was reached by its insert, with the row of the queue
    intro x t hIn job hJob
    have hPart := hSteps.of_suffix hIn
    have hNone : ∀ s, ServerEmpty s → job.jobId ∉ s.db.jobs.map Job.jobId := by
      rintro s ⟨hJobs, -⟩ hMem
      have hNil : s.db.jobs = [] := hJobs
      rw [hNil] at hMem
      cases hMem
    obtain ⟨y, z, u, hSuf, hBefore, hAfter⟩ :=
      Run.flips hNone hPart (mem_map_of_mem hJob)
    have hStep := (hPart.of_suffix hSuf).last_step
    have hz : z ∈ x₀ :: t₀ :=
      hIn.subset (hSuf.subset (mem_cons_of_mem _ mem_cons_self))
    exact ⟨y, z, u, hSuf, hBefore, stored_with_queue (hSound z hz) hStep hBefore hAfter⟩

namespace Sample

def acceptEnv : AcceptEnv := ⟨plainEnv, fun _ => 0⟩

def accepting : Prog Server JobError Unit :=
  serverProgram acceptEnv (.accepts .delivered Sample.request)

/-- A request is made three times. The first transaction has taken the lock when the second
comes, which therefore fails; the third finds the job. -/
theorem servers_run : ∃ h ps, ServerRun acceptEnv h ps ∧
    h.map (fun x => (x.db.jobs.map Job.status, x.locks.holder 0)) =
      [([.accepted], none), ([.accepted], some 1), ([.accepted], some 1), ([.accepted], none),
        ([], some 0), ([], some 0), ([], some 0), ([], some 0), ([], none)] := by
  have hStart : ServerRun acceptEnv [⟨empty, .none⟩] _ := .start ⟨rfl, fun _ _ => rfl⟩
  have hBoth := (hStart.spawn (i := 0) (p := accepting) rfl ⟨_, rfl⟩).spawn (i := 1)
    (p := accepting) rfl ⟨_, rfl⟩
  have hRaced := ((((hBoth.act (i := 0) rfl).act (i := 1) rfl).act (i := 0) rfl).act (i := 0)
    rfl).act (i := 0) rfl
  obtain ⟨ps, hRun, -⟩ := PoolRun.call hRaced 2 (p := accepting) (by
    intro j hj
    simp [Function.update_of_ne, show j ≠ 0 by omega, show j ≠ 1 by omega]) ⟨_, rfl⟩
  exact ⟨_, ps, hRun, by decide +kernel⟩

end Sample

theorem acceptances_limited_sample : ∃ h, Limited Sample.acceptEnv h ∧
    h.map (fun x => (x.db.jobs.map Job.status, x.locks.holder 0)) =
      [([.accepted], none), ([.accepted], some 1), ([.accepted], some 1), ([.accepted], none),
        ([], some 0), ([], some 0), ([], some 0), ([], some 0), ([], none)] := by
  obtain ⟨h, ps, hRun, hFacts⟩ := Sample.servers_run
  exact ⟨h, acceptances_limited hRun, hFacts⟩

theorem ledger_refined_sample : ∃ h : List State, Run Empty (JobStep Sample.plainEnv) h ∧
    h.map (fun s => s.jobs.map Job.status) =
      List.replicate 4 [.accepted] ++ List.replicate 5 [] := by
  obtain ⟨h, ps, hRun, hFacts⟩ := Sample.servers_run
  refine ⟨h.map Server.db, ledger_refined hRun, ?_⟩
  have hJobs := congrArg (List.map Prod.fst) hFacts
  rw [List.map_map] at hJobs ⊢
  exact hJobs

end EternalAI.Jobs
