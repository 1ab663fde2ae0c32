import EternalAI.Jobs.Steps

/-!
# Background jobs — terminal statuses, fencing and attempts

What holds along every interleaving of users, workers and reconcilers, given
that no UUID is drawn twice:

* a job in a terminal status never changes again;
* of all executions that have claimed a job, at most one has a token that a
  heartbeat or a final write accepts;
* an execution whose token was replaced, or whose job was dispatched again,
  changes nothing any more;
* there are no more attempts than dispatches, and no more dispatches than three.

The proof is one invariant of a row (`Job.Sound`) and one preorder between the
rows of a job at two times (`Job.Later`), both kept by every move.

* `jobs_fenced` — the main result.
-/

namespace EternalAI.Jobs

open Lib List Function
open Dispatch (Str Time Uuid)

variable {env : JobEnv} {s s' : State} {t h p : List State} {jobId token : Uuid} {job job' : Job}
  {ps : Procs State JobError}

/-! ## A row, and a row later -/

structure Job.Sound (env : JobEnv) (s : State) (job : Job) : Prop where
  attempts : job.attemptCount ≤ job.dispatchCount
  waiting : job.status = .accepted → job.attemptCount < job.dispatchCount
  dispatches : job.dispatchCount ≤ maxDispatches
  queued : job.queueJobId < s.nextQueueJobId
  token : ∀ token, job.claimToken = some token → ∃ n < s.drawn, token = env.uuid n

/-- How the row of a job may have changed since `drawn` UUIDs had been drawn. -/
structure Job.Later (env : JobEnv) (drawn : Nat) (job job' : Job) : Prop where
  terminal : job.status.terminal = true → job' = job
  dispatches : job.dispatchCount ≤ job'.dispatchCount
  queued : job.dispatchCount < job'.dispatchCount → job.queueJobId < job'.queueJobId
  same : job.dispatchCount = job'.dispatchCount → job.queueJobId = job'.queueJobId
  token : ∀ n < drawn, job'.claimToken = some (env.uuid n) →
    job.claimToken = some (env.uuid n) ∧ job.dispatchCount = job'.dispatchCount

def Sound (env : JobEnv) (s : State) : Prop :=
  ∀ id job, s.job id = some job → job.Sound env s

structure Later (env : JobEnv) (s s' : State) : Prop where
  drawn : s.drawn ≤ s'.drawn
  rows : ∀ id job, s.job id = some job → ∃ job', s'.job id = some job' ∧ job.Later env s.drawn job'

theorem Job.Later.refl (drawn : Nat) (job : Job) : job.Later env drawn job :=
  ⟨fun _ => rfl, Nat.le_refl _, fun hLt => absurd hLt (Nat.lt_irrefl _), fun _ => rfl,
    fun _ _ hToken => ⟨hToken, rfl⟩⟩

theorem Job.Later.trans {drawn drawn' : Nat} {job'' : Job} (hDrawn : drawn ≤ drawn')
    (hFirst : job.Later env drawn job') (hSecond : job'.Later env drawn' job'') :
    job.Later env drawn job'' := by
  refine ⟨fun hEnd => ?_, hFirst.dispatches.trans hSecond.dispatches, fun hLt => ?_, fun hEq => ?_,
    fun n hn hToken => ?_⟩
  · have hSame := hFirst.terminal hEnd
    subst hSame
    exact hSecond.terminal hEnd
  · -- a dispatch in either half gives the job a higher place, and neither half a lower one
    rcases Nat.lt_or_eq_of_le hFirst.dispatches with hEarly | hEarly
    · rcases Nat.lt_or_eq_of_le hSecond.dispatches with hLate | hLate
      · exact (hFirst.queued hEarly).trans (hSecond.queued hLate)
      · exact hSecond.same hLate ▸ hFirst.queued hEarly
    · exact hFirst.same hEarly ▸ hSecond.queued (hEarly ▸ hLt)
  · have hFirstEq := Nat.le_antisymm hFirst.dispatches (hEq ▸ hSecond.dispatches)
    exact (hFirst.same hFirstEq).trans (hSecond.same (hFirstEq ▸ hEq))
  · obtain ⟨hToken', hCount'⟩ := hSecond.token n (hn.trans_le hDrawn) hToken
    obtain ⟨hToken₀, hCount⟩ := hFirst.token n hn hToken'
    exact ⟨hToken₀, hCount.trans hCount'⟩

theorem Later.refl (s : State) : Later env s s :=
  ⟨Nat.le_refl _, fun _ job hJob => ⟨job, hJob, .refl _ job⟩⟩

theorem Later.trans {s'' : State} (hFirst : Later env s s') (hSecond : Later env s' s'') :
    Later env s s'' := by
  refine ⟨hFirst.drawn.trans hSecond.drawn, fun id job hJob => ?_⟩
  obtain ⟨job', hJob', hLater⟩ := hFirst.rows id job hJob
  obtain ⟨job'', hJob'', hLater'⟩ := hSecond.rows id job' hJob'
  exact ⟨job'', hJob'', hLater.trans hFirst.drawn hLater'⟩

/-! ## One move -/

variable {status : JobStatus}

theorem live_not_terminal (hLive : status.live = true) : status.terminal = false := by
  cases status <;> first | rfl | cases hLive

theorem live_not_accepted (hLive : status.live = true) : status ≠ .accepted := by
  rintro rfl
  cases hLive

theorem terminal_not_accepted (hEnd : status.terminal = true) : status ≠ .accepted := by
  rintro rfl
  cases hEnd

/-- A row that keeps its token, its queue row and its counters, and that does
not wait, is as sound as before. -/
theorem Job.Sound.keep (hSound : job.Sound env s) (hDrawn : s.drawn ≤ s'.drawn)
    (hSeq : s.nextQueueJobId ≤ s'.nextQueueJobId) (hStatus : job'.status ≠ .accepted)
    (hCounts : job'.attemptCount = job.attemptCount ∧ job'.dispatchCount = job.dispatchCount)
    (hIds : job'.queueJobId = job.queueJobId ∧ job'.claimToken = job.claimToken) :
    job'.Sound env s' := by
  obtain ⟨hAttempts, hDispatches⟩ := hCounts
  obtain ⟨hQueue, hToken⟩ := hIds
  refine ⟨?_, fun hAcc => absurd hAcc hStatus, ?_, ?_, fun τ hτ => ?_⟩
  · rw [hAttempts, hDispatches]
    exact hSound.attempts
  · rw [hDispatches]
    exact hSound.dispatches
  · rw [hQueue]
    exact hSound.queued.trans_le hSeq
  · rw [hToken] at hτ
    obtain ⟨n, hn, hEq⟩ := hSound.token τ hτ
    exact ⟨n, hn.trans_le hDrawn, hEq⟩

/-- **A move keeps a row sound.** -/
theorem JobMove.sound {old new : Option Job} (hMove : JobMove env s s' old new)
    (hDrawn : s.drawn ≤ s'.drawn) (hSeq : s.nextQueueJobId ≤ s'.nextQueueJobId)
    (hOld : ∀ job ∈ old, job.Sound env s) : ∀ job ∈ new, job.Sound env s' := by
  intro job' hNew
  cases hMove with
  | kept =>
    have hSound := hOld job' hNew
    exact { hSound with
      queued := hSound.queued.trans_le hSeq
      token := fun τ hτ => (hSound.token τ hτ).imp fun n hn => ⟨hn.1.trans_le hDrawn, hn.2⟩ }
  | accepted hNext =>
    cases hNew
    exact ⟨Nat.zero_le _, fun _ => Nat.one_pos, (by decide : 1 ≤ maxDispatches), hNext,
      fun τ hτ => nomatch hτ⟩
  | @written job _ _ hWrite hDrawn' hSeq' =>
    cases hNew
    have hSound := hOld job rfl
    cases hWrite with
    | claimed hWaits =>
      -- The token is the one that the claim draws.
      refine ⟨hSound.waiting hWaits, nofun, hSound.dispatches,
        hSound.queued.trans_le hSeq, fun τ hτ => ?_⟩
      exact ⟨s.drawn, hDrawn' ▸ Nat.lt_succ_self _, (Option.some.inj hτ).symm⟩
    | beaten hLive => exact hSound.keep hDrawn hSeq (live_not_accepted hLive) ⟨rfl, rfl⟩ ⟨rfl, rfl⟩
    | @finalized final _ =>
      exact hSound.keep hDrawn hSeq (terminal_not_accepted final.terminal) ⟨rfl, rfl⟩ ⟨rfl, rfl⟩
    | @marked _ status _ _ hStatus _ =>
      -- a cancellation never sends a job back to waiting
      refine hSound.keep hDrawn hSeq ?_ ⟨rfl, rfl⟩ ⟨rfl, rfl⟩
      rintro (rfl : status = .accepted)
      rcases hStatus with hEq | ⟨hEq, -⟩ <;> cases hEq
    | closed _ hEnd =>
      exact hSound.keep hDrawn hSeq (terminal_not_accepted hEnd) ⟨rfl, rfl⟩ ⟨rfl, rfl⟩
    | redispatched _ hLeft hOnly =>
      -- One more dispatch leaves room for one more attempt.
      refine ⟨hSound.attempts.trans (Nat.le_succ _), fun _ => Nat.lt_succ_of_le hSound.attempts,
        hLeft, ?_, fun τ hτ => nomatch hτ⟩
      exact hSeq' ▸ Nat.lt_succ_of_le hOnly.sequence.ge

/-- A row that has not ended and keeps its token, its queue row and its
dispatches is a later one. -/
theorem Job.Later.keep {drawn : Nat} (hOpen : job.status.terminal = false)
    (hDispatches : job'.dispatchCount = job.dispatchCount)
    (hIds : job'.queueJobId = job.queueJobId ∧ job'.claimToken = job.claimToken) :
    job.Later env drawn job' := by
  refine ⟨fun hEnd => ?_, hDispatches.ge, fun hLt => ?_, fun _ => hIds.1.symm,
    fun n _ hToken => ⟨hIds.2 ▸ hToken, hDispatches.symm⟩⟩
  · rw [hOpen] at hEnd
    cases hEnd
  · exact absurd hDispatches (Nat.ne_of_gt hLt)

/-- **A move takes a row to a later one.** -/
theorem JobMove.later (hFresh : Injective env.uuid) {old new : Option Job}
    (hMove : JobMove env s s' old new) (hOld : ∀ job ∈ old, job.Sound env s) :
    ∀ job ∈ old, ∃ job' ∈ new, job.Later env s.drawn job' := by
  intro job₀ hJob
  cases hMove with
  | kept => exact ⟨job₀, hJob, .refl _ _⟩
  | accepted _ => cases hJob
  | written hWrite _ _ =>
    cases hJob
    refine ⟨_, rfl, ?_⟩
    cases hWrite with
    | claimed hWaits =>
      refine ⟨fun hEnd => absurd hWaits (terminal_not_accepted hEnd), Nat.le_refl _,
        fun hLt => absurd hLt (Nat.lt_irrefl _), fun _ => rfl, fun n hn hToken => ?_⟩
      -- the token that was just drawn is none of the earlier ones
      exact absurd (hFresh (Option.some.inj hToken)) (Nat.ne_of_gt hn)
    | beaten hLive | finalized hLive => exact .keep (live_not_terminal hLive) rfl ⟨rfl, rfl⟩
    | marked hOpen _ _ | closed hOpen _ => exact .keep hOpen rfl ⟨rfl, rfl⟩
    | redispatched hOpen _ _ =>
      -- the token is cleared, so none of the earlier ones is in the row
      refine ⟨fun hEnd => ?_, Nat.le_succ _, fun _ => (hOld job₀ rfl).queued,
        fun hEq => absurd hEq (Nat.ne_of_lt (Nat.lt_succ_self _)), fun n _ hToken => nomatch hToken⟩
      rw [hOpen] at hEnd
      cases hEnd

/-! ## Runs -/

theorem sound_later (hFresh : Injective env.uuid)
    (hRun : Run Empty (JobStep env) (s :: t)) : ∀ s₀ ∈ s :: t, Sound env s₀ ∧ Later env s₀ s := by
  refine hRun.mem_inv_rel ?_ Later.refl Later.trans ?_
  · intro s hEmpty id job hJob
    rw [State.job, hEmpty] at hJob
    cases hJob
  · intro s t s' hPast hStep
    have hSound := (hPast s mem_cons_self).1
    obtain ⟨hDrawn, hSeq⟩ := hStep.onward
    exact ⟨fun id => (hStep.move id).sound hDrawn hSeq (hSound id), hDrawn,
      fun id => (hStep.move id).later hFresh (hSound id)⟩

/-! ## Executions -/

/-- In the last step of this history an execution has claimed the job with this
token. -/
def Claims (env : JobEnv) (jobId token : Uuid) : List State → Prop
  | s' :: s :: _ => ∃ queueJobId claim, s.claim env jobId queueJobId = (some claim, s') ∧
      claim.claimToken = token
  | _ => False

/-- A heartbeat or a final write with this token is accepted. -/
def State.Accepts (env : JobEnv) (s : State) (jobId token : Uuid) : Prop :=
  (∃ status s', s.heartbeat jobId token = (some status, s')) ∨
    ∃ final s', s.finalize env jobId token final = .ok (true, s')

/-- Neither a heartbeat nor a final write with this token changes anything. -/
structure Inert (env : JobEnv) (s : State) (jobId token : Uuid) : Prop where
  heartbeat : s.heartbeat jobId token = (none, s)
  finalize : ∀ final, s.finalize env jobId token final = .ok (false, s)

theorem Claims.shape (hClaims : Claims env jobId token p) : ∃ s' s t, p = s' :: s :: t := by
  cases p with
  | nil => exact hClaims.elim
  | cons s' rest =>
    cases rest with
    | nil => exact hClaims.elim
    | cons s t => exact ⟨s', s, t, rfl⟩

theorem Claims.drawn (hClaims : Claims env jobId token (s' :: s :: t)) :
    token = env.uuid s.drawn ∧ s.drawn < s'.drawn ∧
      ∃ job, s'.job jobId = some job ∧ job.claimToken = some token := by
  obtain ⟨queueJobId, claim, hClaim, rfl⟩ := hClaims
  rcases claim_cases env s jobId queueJobId with
    hNone | ⟨job, hJob, -, -, hEq⟩
  · rw [hNone] at hClaim
    cases hClaim
  · rw [hEq] at hClaim
    cases hClaim
    refine ⟨rfl, Nat.lt_succ_self _, job.claimed (env.uuid s.drawn) s.clock, ?_, rfl⟩
    have hRow : (s.updateJob jobId (Job.claimed (env.uuid s.drawn) s.clock)).job jobId =
        (s.job jobId).map (Job.claimed (env.uuid s.drawn) s.clock) :=
      job_updateJob_self fun _ => rfl
    rw [hJob] at hRow
    exact hRow

theorem State.Accepts.held (hAccepts : s.Accepts env jobId token) :
    ∃ job, s.job jobId = some job ∧ job.held token := by
  rcases hAccepts with ⟨status, s', hBeat⟩ | ⟨final, s', hFinal⟩
  · rcases heartbeat_cases jobId token with hNone | ⟨job, hJob, hHeld, -⟩
    · rw [hNone] at hBeat
      cases hBeat
    · exact ⟨job, hJob, hHeld⟩
  · rcases finalize_cases hFinal with ⟨hNo, -⟩ | ⟨job, hJob, hHeld, -⟩
    · cases hNo
    · exact ⟨job, hJob, hHeld⟩

theorem inert_of_token (hToken : ∀ job, s.job jobId = some job → job.claimToken ≠ some token) :
    Inert env s jobId token := by
  have hNot : ∀ job, s.job jobId = some job → ¬job.held token := fun job hJob hHeld =>
    hToken job hJob hHeld.1
  refine ⟨?_, fun final => ?_⟩
  · rcases heartbeat_cases jobId token with hNone | ⟨job, hJob, hHeld, -⟩
    · exact hNone
    · exact absurd hHeld (hNot job hJob)
  · unfold State.finalize
    split
    · rfl
    · rename_i job hJob
      rw [if_neg (hNot job hJob)]

/-- A token that was drawn before some state, and is not in its row, is in no
later row. -/
theorem Later.token_gone (hLater : Later env s s') (hSome : s.job jobId = some job) {n : Nat}
    (hn : n < s.drawn) (hToken : job.claimToken ≠ some (env.uuid n)) :
    ∀ job', s'.job jobId = some job' → job'.claimToken ≠ some (env.uuid n) := by
  intro job' hJob' hToken'
  obtain ⟨job'', hJob'', hRow⟩ := hLater.rows jobId job hSome
  obtain rfl := Option.some.inj (hJob'.symm.trans hJob'')
  exact hToken (hRow.token n hn hToken').1

section Positions

variable (hFresh : Injective env.uuid) (hRun : Run Empty (JobStep env) h)

include hFresh hRun

variable {s₁ : State} {t₁ : List State}

theorem later_of_suffix (hOrder : s₁ :: t₁ <:+ s :: t) (hHere : s :: t <:+ h) :
    Sound env s₁ ∧ Later env s₁ s :=
  sound_later hFresh (hRun.of_suffix hHere) s₁
    (hOrder.subset mem_cons_self)

theorem claims_apart {s₁' s₂ s₂' : State} {t₂ : List State} {id₁ id₂ : Uuid}
    (hFirst : Claims env id₁ token (s₁' :: s₁ :: t₁))
    (hSecond : Claims env id₂ token (s₂' :: s₂ :: t₂)) (hHere : s₂' :: s₂ :: t₂ <:+ h) :
    ¬ s₁' :: s₁ :: t₁ <:+ s₂ :: t₂ := by
  intro hOrder
  obtain ⟨hToken₁, hLt, -⟩ := hFirst.drawn
  obtain ⟨hToken₂, -, -⟩ := hSecond.drawn
  -- the later claim draws a UUID when the earlier one's has been drawn
  have hDrawn := (later_of_suffix hFresh hRun hOrder ((suffix_cons _ _).trans hHere)).2.drawn
  have hEq := hFresh (hToken₁.symm.trans hToken₂)
  omega

theorem claims_unique {p₁ p₂ : List State} {id₁ id₂ : Uuid} (hFirst : Claims env id₁ token p₁)
    (hSecond : Claims env id₂ token p₂) (h₁ : p₁ <:+ h) (h₂ : p₂ <:+ h) : p₁ = p₂ := by
  obtain ⟨s₁', s₁, t₁, rfl⟩ := hFirst.shape
  obtain ⟨s₂', s₂, t₂, rfl⟩ := hSecond.shape
  exact position_eq h₁ h₂ (claims_apart hFresh hRun hFirst hSecond h₂)
    (claims_apart hFresh hRun hSecond hFirst h₁)

theorem claims_known (hClaims : Claims env jobId token p) (hOrder : p <:+ s :: t)
    (hHere : s :: t <:+ h) :
    ∃ n < s.drawn, token = env.uuid n ∧ ∃ job, s.job jobId = some job := by
  obtain ⟨s₁', s₁, t₁, rfl⟩ := hClaims.shape
  obtain ⟨hToken, hLt, job, hJob, -⟩ := hClaims.drawn
  obtain ⟨-, hLater⟩ := later_of_suffix hFresh hRun hOrder hHere
  obtain ⟨job', hJob', -⟩ := hLater.rows jobId job hJob
  exact ⟨s₁.drawn, hLt.trans_le hLater.drawn, hToken, job', hJob'⟩

theorem replaced_inert (hClaims : Claims env jobId token p) (hSince : p <:+ s₁ :: t₁)
    (hOrder : s₁ :: t₁ <:+ s :: t) (hHere : s :: t <:+ h)
    (hGone : ∀ job, s₁.job jobId = some job → job.claimToken ≠ some token) :
    Inert env s jobId token := by
  obtain ⟨n, hn, rfl, job, hJob⟩ := claims_known hFresh hRun hClaims hSince (hOrder.trans hHere)
  obtain ⟨-, hLater⟩ := later_of_suffix hFresh hRun hOrder hHere
  exact inert_of_token (hLater.token_gone hJob hn (hGone job hJob))

/-- A job that was dispatched again: its old queue row cannot be claimed, and no
token from before is accepted. -/
theorem redispatched_inert {job₁ : Job} (hOrder : s₁ :: t₁ <:+ s :: t) (hHere : s :: t <:+ h)
    (hJob₁ : s₁.job jobId = some job₁) (hJob : s.job jobId = some job)
    (hMore : job₁.dispatchCount < job.dispatchCount) :
    s.claim env jobId job₁.queueJobId = (none, s) ∧
    ∀ p token, p <:+ s₁ :: t₁ → Claims env jobId token p → Inert env s jobId token := by
  obtain ⟨-, hLater⟩ := later_of_suffix hFresh hRun hOrder hHere
  obtain ⟨job', hJob', hRow⟩ := hLater.rows jobId job₁ hJob₁
  obtain rfl := Option.some.inj (hJob.symm.trans hJob')
  constructor
  · -- a claim names the row of the queue that the job has now, which is a later one
    rcases claim_cases env s jobId job₁.queueJobId with
      hNone | ⟨job', hJob', -, hQueue, -⟩
    · exact hNone
    · obtain rfl := Option.some.inj (hJob.symm.trans hJob')
      exact absurd hQueue (Nat.ne_of_gt (hRow.queued hMore))
  · -- an old token in the row would mean that there was no dispatch since
    intro p token hSince hClaims
    obtain ⟨n, hn, rfl, -⟩ := claims_known hFresh hRun hClaims hSince (hOrder.trans hHere)
    refine inert_of_token fun job' hJob' hToken => ?_
    obtain rfl := Option.some.inj (hJob.symm.trans hJob')
    exact absurd (hRow.token n hn hToken).2 (Nat.ne_of_lt hMore)

end Positions

/-! ## The main result -/

/--
**Jobs are fenced.** If no UUID is drawn twice, then in every interleaving of
users, workers and reconcilers: a job in a terminal status does not change; of
the executions that have claimed a job at most one has a token that is accepted;
a token that was replaced, and everything that belongs to an earlier dispatch,
changes nothing; and a job has at most as many attempts as dispatches, and at
most three of those.
-/
theorem jobs_fenced (hFresh : Injective env.uuid) (hRun : JobRun env h ps) :
    (∀ s t, s :: t <:+ h → ∀ s₀ ∈ s :: t, ∀ jobId job, s₀.job jobId = some job →
      job.status.terminal = true → s.job jobId = some job) ∧
    (∀ s t, s :: t <:+ h → ∀ jobId token₁ token₂ p₁ p₂, p₁ <:+ s :: t → p₂ <:+ s :: t →
      Claims env jobId token₁ p₁ → Claims env jobId token₂ p₂ →
      s.Accepts env jobId token₁ → s.Accepts env jobId token₂ → p₁ = p₂) ∧
    (∀ s t s₁ t₁ p jobId token, p <:+ s₁ :: t₁ → s₁ :: t₁ <:+ s :: t → s :: t <:+ h →
      Claims env jobId token p →
      (∀ job, s₁.job jobId = some job → job.claimToken ≠ some token) →
      Inert env s jobId token) ∧
    (∀ s t s₁ t₁ jobId job₁ job, s₁ :: t₁ <:+ s :: t → s :: t <:+ h →
      s₁.job jobId = some job₁ → s.job jobId = some job →
      job₁.dispatchCount < job.dispatchCount →
      s.claim env jobId job₁.queueJobId = (none, s) ∧
      ∀ p token, p <:+ s₁ :: t₁ → Claims env jobId token p → Inert env s jobId token) ∧
    ∀ s ∈ h, ∀ jobId job, s.job jobId = some job →
      job.attemptCount ≤ job.dispatchCount ∧ job.dispatchCount ≤ maxDispatches := by
  have hSteps := hRun.steps
  refine ⟨fun s t hHere s₀ hMem jobId job hJob hEnd => ?_, ?_, ?_, ?_,
    fun s hs jobId job hJob => ?_⟩
  · have hHist := hSteps.of_suffix hHere
    obtain ⟨job', hJob', hRow⟩ := (sound_later hFresh hHist s₀ hMem).2.rows jobId job hJob
    rw [hJob', hRow.terminal hEnd]
  · -- a row has one token, and a token was drawn by one claim
    intro s t hHere jobId token₁ token₂ p₁ p₂ h₁ h₂ hFirst hSecond hAcc₁ hAcc₂
    obtain ⟨job₁, hJob₁, hHeld₁⟩ := hAcc₁.held
    obtain ⟨job₂, hJob₂, hHeld₂⟩ := hAcc₂.held
    obtain rfl := Option.some.inj (hJob₁.symm.trans hJob₂)
    obtain rfl := Option.some.inj (hHeld₁.1.symm.trans hHeld₂.1)
    exact claims_unique hFresh hSteps hFirst hSecond (h₁.trans hHere) (h₂.trans hHere)
  · intro s t s₁ t₁ p jobId token hSince hOrder hHere hClaims hGone
    exact replaced_inert hFresh hSteps hClaims hSince hOrder hHere hGone
  · intro s t s₁ t₁ jobId job₁ job hOrder hHere hJob₁ hJob hMore
    exact redispatched_inert hFresh hSteps hOrder hHere hJob₁ hJob hMore
  · obtain ⟨s₀, t₀, rfl⟩ := exists_cons_of_ne_nil hSteps.ne_nil
    have hSound := (sound_later hFresh hSteps s hs).1 jobId job hJob
    exact ⟨hSound.attempts, hSound.dispatches⟩

namespace Sample

def plainEnv : JobEnv := ⟨id, fun _ => true, fun _ _ => true⟩

def request : AcceptRequest := ⟨⟨['t'], ['u']⟩, none, ['k'], .none, .null, 0, []⟩

/-- A worker that dies, or is stopped, while its handler runs. -/
def interrupted (queueJobId : Nat) : Execution :=
  ⟨0, queueJobId, .delivered, [], .cancelled, .delivered, false⟩

def batch : Batch := ⟨fun _ => false, fun _ q => q, fun _ => .delivered⟩

def minute (s : State) : State := { s with clock := s.clock + 60000000 }

def empty : State := ⟨0, [], fun _ => none, 0, 0⟩

/-- A job is accepted and claimed, its worker dies, and after a minute the job is
dispatched again and claimed by another worker. -/
def turns : List (Turn State JobError) :=
  [.call ((JobCall.accepts .delivered request).program plainEnv),
    .call ((JobCall.executes (interrupted 0)).program plainEnv), .outside minute,
    .call ((JobCall.reconciles batch).program plainEnv),
    .call ((JobCall.executes (interrupted 1)).program plainEnv)]

def history : List State := Turn.inTurn turns [empty]

theorem history_run : ∃ ps, JobRun plainEnv history ps := by
  have hEmpty : Empty empty := rfl
  refine PoolRun.inTurn hEmpty ?_
  simp only [turns, forall_mem_cons]
  exact ⟨fun _ => ⟨_, rfl⟩, fun _ => ⟨_, rfl⟩, fun s => ⟨rfl, Nat.le_refl _, rfl⟩,
    fun _ => ⟨_, rfl⟩, fun _ => ⟨_, rfl⟩, nofun⟩

/-- The job was accepted. -/
def one : State := Prog.committed (State.accept plainEnv request) empty

/-- The first worker has claimed it. -/
def two : State := (one.claim plainEnv 0 0).2

/-- It is dispatched again. -/
def four : State := Prog.committed (State.reconcileRow 0 false fun q => q) (minute two)

/-- The second worker has claimed it. -/
def five : State := (four.claim plainEnv 0 1).2

def shape (s : State) : Option (Nat × Nat × Option Uuid) :=
  (s.job 0).map fun job => (job.attemptCount, job.dispatchCount, job.claimToken)

end Sample

open Sample

/-- In the sample history the job is attempted twice under two dispatches, and
the first worker has no say any more. -/
theorem jobs_fenced_sample :
    shape five = some (2, 2, some 2) ∧
    Inert plainEnv five 0 1 ∧
    five.claim plainEnv 0 0 = (none, five) := by
  obtain ⟨ps, hRun⟩ := history_run
  have hHistory : history = [five, four, minute two, minute two, two, one, empty] := rfl
  rw [hHistory] at hRun
  obtain ⟨-, -, -, hAgain, -⟩ := jobs_fenced (fun _ _ hEq => hEq) hRun
  have hShape : shape two = some (1, 1, some 1) := by decide +kernel
  have hShape' : shape five = some (2, 2, some 2) := by decide +kernel
  obtain ⟨job₁, hJob₁, hFacts₁⟩ := Option.map_eq_some_iff.mp hShape
  obtain ⟨job, hJob, hFacts⟩ := Option.map_eq_some_iff.mp hShape'
  simp only [Prod.mk.injEq] at hFacts₁ hFacts
  have hClaims : Claims plainEnv 0 1 [two, one, empty] :=
    ⟨0, _, rfl, rfl⟩
  obtain ⟨hClaim, hInert⟩ := hAgain five _ two [one, empty] 0 job₁ job
    ⟨[five, four, minute two, minute two], rfl⟩
    suffix_rfl hJob₁ hJob (by omega)
  exact ⟨hShape', hInert _ 1 suffix_rfl hClaims, hClaim⟩

end EternalAI.Jobs
