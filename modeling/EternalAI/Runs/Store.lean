import EternalAI.Runs.Model

/-!
# Browser runs — the transactions of the run store

The bodies of the transactions of `PostgreSQLBrowserRunStore` that change a run:
each takes the state at the moment the run row is locked, and the answers of the
authority, and either refuses or returns the state to be committed. All of them
go through `locked`, which compares the caller's snapshot with the locked row,
and through `update`, which raises the state revision.

* `claimCandidate`, `refreshWorker`, `renew`, `advance`, `attachLease`,
  `persistVerified`, `prepareCapture`, `transitionCapture`, `requestCancel`,
  `acknowledgeCancel`, `finalize`, `recordCleanup`.
* `enterHandoff`, `requestHandoffCheck`, `settleHandoffCheck`, `finalizeHandoff`,
  `expireLostHandoff`, `recordHistoricalHandoffQuarantine`.
-/

namespace EternalAI.Runs

open Lib
open Dispatch (Str Time)
open Leases (Bytes Owner)

/-- The answers of the authority during one operation: `before_run_lock`, the
checks under the lock in the order they are made, and `check_handoff_expiry`. -/
structure Answers where
  before : Except RunError Unit
  check : Nat → Except RunError Unit
  expiry : Except RunError HandoffReason

/-! ## Rows and events -/

def State.readRun (s : State) (owner : Owner) (taskId runId : Str) : Except RunError Run := do
  ensure (s.run.admission.owner = owner ∧ s.run.admission.taskId = taskId ∧
    s.run.admission.runId = runId) .runNotFound
  pure s.run

/-- The flags of `_locked`. -/
structure Fence where
  (worker terminalOk latest : Bool)

/-- The defaults of `_locked`: the worker's own operations on an active run. -/
def Fence.held : Fence := ⟨true, false, false⟩

/-- The worker of the snapshot still holds the run. -/
def Run.heldBy (current expected : Run) (now : Time) : Prop :=
  current.workerId.isSome ∧ current.workerId = expected.workerId ∧
    current.workerEpoch = expected.workerEpoch ∧
    current.workerDeadline = expected.workerDeadline ∧ ∃ d ∈ current.workerDeadline, now < d

instance (current expected : Run) (now : Time) : Decidable (current.heldBy expected now) := by
  unfold Run.heldBy
  infer_instance

/-- `_locked`: the locked row, if it is the one the caller decided on. -/
def State.locked (s : State) (expected : Run) (fence : Fence) (answers : Answers) :
    Except RunError Run := do
  answers.before
  let current ← s.readRun expected.admission.owner expected.admission.taskId
    expected.admission.runId
  ensure ((fence.latest ∨ current.stateRevision = expected.stateRevision) ∧
    current.admission = expected.admission ∧ (fence.terminalOk ∨ current.status.active))
    .runStale
  ensure (fence.worker → current.heldBy expected s.clock) .workerStale
  answers.check 0
  pure current

/-- `_update`: the locked row with some columns assigned and the next revision. -/
def State.update (s : State) (change : Run → Run) : Except RunError State := do
  ensure (s.run.stateRevision < maxRunRevision) .revisionExhausted
  pure { s with run := { change s.run with stateRevision := s.run.stateRevision + 1 } }

def State.transitionTask (s : State) (status : RunStatus) (errorCode : Option Str) :
    Except RunError State := do
  ensure (s.task.status = .running ∨ s.task.status = .waitingUser) .taskStale
  pure { s with task := ⟨status.task, errorCode⟩ }

/-- `append_owned_event`: the id of an event is its primary key. -/
def State.appendEvent (s : State) (event : Event) : Except RunError State := do
  ensure (s.event event.id = none) .storage
  pure { s with events := s.events ++ [event] }

/-- `_write_event`: the facts of a stored event of the expected kind. -/
def State.writeEvent {α : Type} (s : State) (id : EventId) (facts : Payload → Option α) :
    Except RunError (Option α) :=
  match s.event id with
  | none => .ok none
  | some event =>
    match facts event.payload with
    | none => .error .writeAuditInvalid
    | some found => .ok (some found)

/-- `_ttl`, in microseconds. -/
def ttl (seconds : Int) : Except RunError Time := do
  ensure (1 ≤ seconds ∧ seconds ≤ 300) .ttlInvalid
  pure (seconds * 1000000)

def RunEnv.frozenPublication (env : RunEnv) (run : Run) : Except RunError Manifest :=
  match env.publication with
  | none => .error .stepPublicationUnavailable
  | some manifest => do
    ensure (manifest.digest = run.admission.publicationDigest) .stepPublicationInvalid
    pure manifest

/-! ## Workers -/

/-- The locked part of `_claim_candidate`. -/
def State.claimCandidate (before : Run) (workerId : Str) (duration : Time) (answers : Answers)
    (s : State) : Except RunError (Run × State) := do
  let current ← s.readRun before.admission.owner before.admission.taskId before.admission.runId
  ensure (current.admission = before.admission ∧
    current.stateRevision = before.stateRevision ∧ current.status.active ∧
    s.task.status = current.status.task ∧ ∀ d ∈ current.workerDeadline, d ≤ s.clock) .runStale
  answers.check 0
  ensure (current.workerEpoch < maxRunRevision) .workerEpochExhausted
  let s' ← s.update fun run => { run with
    workerId := some workerId
    workerEpoch := run.workerEpoch + 1
    workerDeadline := some (s.clock + duration) }
  pure (s'.run, s')

/-- The checks of `refresh_worker` on the row it reads first. -/
def Run.checkpoint (candidate previous : Run) : Except RunError Unit :=
  ensure (candidate.workerId = previous.workerId ∧
    candidate.workerEpoch = previous.workerEpoch ∧
    candidate.admission = previous.admission ∧ candidate.status.active) .checkpointStale

/-- The locked part of `refresh_worker`: the captured session must still be valid. -/
def State.refreshWorker (candidate : Run) (duration : Time) (answers : Answers) (s : State) :
    Except RunError (Run × State) := do
  let current ← s.locked candidate Fence.held answers
  ensure (current.stateRevision < maxRunRevision) .revisionExhausted
  ensure (s.clock < current.admission.authExpiresAt) .authExpired
  let s' ← s.update fun run => { run with workerDeadline := some (s.clock + duration) }
  pure (s'.run, s')

section

variable (claim : Run) (phase : RunPhase) (effect : RunEffect)

def State.renew (duration : Time) (answers : Answers) (s : State) :
    Except RunError (Run × State) := do
  let _ ← s.locked claim Fence.held answers
  let s' ← s.update fun run => { run with workerDeadline := some (s.clock + duration) }
  pure (s'.run, s')

/-! ## Progress -/

/-- The action `advance` asks the authority for: it only settles the effect. -/
def settlesEffect : Bool :=
  claim.phase = some phase ∧ effect = .unknown

/-- What `advance` refuses of the locked row. -/
def Run.advances (current : Run) (settles : Bool) (phase : RunPhase) (effect : RunEffect) : Prop :=
  current.verification ≠ some .verified ∧
    (settles → current.phase = some phase ∧ effect = .unknown) ∧
    (current.cancelRequested → current.phase = some phase) ∧
    (current.phase = some .waitingUser → phase = .waitingUser) ∧
    (current.phase = some phase ∨ ∃ p ∈ current.phase, phase ∈ p.next) ∧
    (current.effect ≠ .notSent → effect ≠ .notSent) ∧
    (current.effect = .unknown → effect = .unknown)

instance (current : Run) (settles : Bool) (phase : RunPhase) (effect : RunEffect) :
    Decidable (current.advances settles phase effect) := by
  unfold Run.advances
  infer_instance

def RunPhase.status : RunPhase → RunStatus
  | .waitingUser => .waitingUser
  | .queued | .acquiring | .running | .verifying => .running

def State.advance (answers : Answers) (s : State) : Except RunError (Run × State) := do
  let current ← s.locked claim Fence.held answers
  ensure (current.advances (settlesEffect claim phase effect) phase effect) .transitionInvalid
  let s' ← s.update fun run => { run with
    phase := some phase
    status := phase.status
    effect := effect }
  if phase.status = current.status then pure (s'.run, s')
  else do
    let s'' ← s'.transitionTask phase.status none
    pure (s''.run, s'')

end

section

variable (s : State) (claim : Run)

/-- `attach_lease`; the second answer is about the row with the lease. -/
def State.attachLease (providerKey : Str) (manifestDigest : Bytes) (leaseEpoch : Nat)
    (answers : Answers) (s : State) : Except RunError (Run × State) := do
  ensure (1 ≤ leaseEpoch ∧ leaseEpoch ≤ maxRunRevision) .leaseInvalid
  let current ← s.locked claim Fence.held answers
  ensure (current.leaseEpoch = none ∧ current.phase = some .acquiring) .leaseAlreadyBound
  answers.check 1
  let s' ← s.update fun run => { run with
    providerKey := some providerKey
    providerManifestDigest := some manifestDigest
    leaseEpoch := some leaseEpoch }
  pure (s'.run, s')

/-- `persist_verified`; the second answer is about the row with the result. -/
def State.persistVerified (result : Envelope) (resultDigest evidenceDigest : Bytes)
    (rejectCancel : Bool) (answers : Answers) (s : State) : Except RunError (Run × State) := do
  ensure (result.cipherVersion = "aes256gcm-browser-result-v1".toList) .resultPurposeInvalid
  let current ← s.locked claim Fence.held answers
  ensure (¬(rejectCancel ∧ current.cancelRequested)) .cancelRequested
  ensure (current.verification ≠ some .verified ∧
    (current.phase = some .running ∨ current.phase = some .verifying)) .verificationStale
  answers.check 1
  let s' ← s.update fun run => { run with
    verification := some .verified
    verificationEvidenceDigest := some evidenceDigest
    phase := some .verifying
    resultDigest := some resultDigest
    protectedResult := some result }
  pure (s'.run, s')

/-- `prepare_capture` with the operation id it draws. -/
def State.prepareCapture (operationId : Str) (answers : Answers) (s : State) :
    Except RunError (Run × State) := do
  let current ← s.locked claim Fence.held answers
  ensure (current.captureStatus = .notRequested ∧ current.leaseEpoch.isSome ∧
    current.verification = some .verified) .captureNotReady
  let s' ← s.update fun run => { run with
    captureOperationId := some operationId
    captureStatus := .prepared }
  pure (s'.run, s')

/-- `transition_capture`: success belongs to the profile store. -/
def State.transitionCapture (status : CaptureStatus) (profileGenerationId : Option Str)
    (answers : Answers) (s : State) : Except RunError (Run × State) := do
  ensure (status ≠ .validated ∧ status ≠ .promoted ∧ profileGenerationId = none)
    .profileTransactionRequired
  let current ← s.locked claim Fence.held answers
  ensure (status ∈ current.captureStatus.next) .captureTransitionInvalid
  let s' ← s.update fun run => { run with captureStatus := status }
  pure (s'.run, s')

/-! ## Ends -/

/-- The locked part of `request_cancel`: it decides on the locked row. -/
def State.requestCancel (initial : Run) (answers : Answers) (s : State) :
    Except RunError (Run × State) := do
  let current ← s.locked initial ⟨false, true, true⟩ answers
  if ¬current.status.active ∨ current.cancelRequested then pure (current, s)
  else do
    let s' ← s.update fun run => { run with cancelRequested := true }
    pure (s'.run, s')

/-- `acknowledge_cancel`; the second answer is about the acknowledged row. -/
def State.acknowledgeCancel (answers : Answers) (s : State) : Except RunError (Run × State) := do
  let current ← s.locked claim Fence.held answers
  ensure current.cancelRequested .cancelNotRequested
  answers.check 1
  let s' ← s.update fun run => { run with cancelAcknowledged := true }
  pure (s'.run, s')

/-- `browser_cancelled`. -/
def cancelledCode : Str := "browser_cancelled".toList

/-- `browser_effect_unknown`. -/
def effectUnknownCode : Str := "browser_effect_unknown".toList

/-- `browser_verification_failed`. -/
def verificationFailedCode : Str := "browser_verification_failed".toList

/-- What `_finalize_locked` demands of the locked row. -/
def Run.ends (current : Run) (status : RunStatus) (errorCode : Option Str)
    (verification : Option RunVerification) : Prop :=
  ¬status.active ∧ current.captureStatus.terminal ∧
    (status = .completed ↔ verification = some .verified) ∧
    (current.verification = some .verified → verification = some .verified) ∧
    (status = .completed → errorCode = none ∧ current.protectedResult.isSome ∧
      current.resultDigest.isSome ∧ current.verificationEvidenceDigest.isSome) ∧
    (status = .failed → errorCode.isSome) ∧
    (status = .cancelled → errorCode = some cancelledCode ∧ current.cancelAcknowledged) ∧
    (current.effect = .unknown → status ≠ .completed →
      status = .failed ∧ errorCode = some effectUnknownCode)

instance (current : Run) (status : RunStatus) (errorCode : Option Str)
    (verification : Option RunVerification) :
    Decidable (current.ends status errorCode verification) := by
  unfold Run.ends
  infer_instance

def State.finalizeLocked (status : RunStatus) (errorCode : Option Str)
    (verification : Option RunVerification) (dispatchFailureCode : Option DispatchFailureCode) :
    Except RunError State := do
  let final := verification.or s.run.verification
  ensure (s.run.ends status errorCode final) .terminalInvalid
  let eventId := EventId.terminal s.run.admission.runId
  let revision := s.run.stateRevision + 1
  let s₁ ← s.appendEvent ⟨eventId, revision, .terminal status errorCode revision⟩
  let s₂ ← s₁.update fun run => { run with
    status := status
    phase := none
    verification := final
    errorCode := errorCode
    dispatchFailureCode := dispatchFailureCode
    terminalRevision := some revision
    terminalEventId := some eventId }
  s₂.transitionTask status errorCode

/-- A lower-case identifier of at most 96 characters: `[a-z][a-z0-9_]{0,95}`. -/
def codeFits : Str → Bool
  | [] => false
  | c :: rest => c.isLower && rest.length ≤ 95 &&
      rest.all fun d => d.isLower || d.isDigit || d = '_'

def State.finalize (status : RunStatus) (errorCode : Option Str)
    (verification : Option RunVerification) (dispatchFailureCode : Option DispatchFailureCode)
    (answers : Answers) (s : State) : Except RunError (Run × State) := do
  ensure (∀ code ∈ errorCode, codeFits code) .errorCodeInvalid
  let _ ← s.locked claim Fence.held answers
  let s' ← s.finalizeLocked status errorCode verification dispatchFailureCode
  pure (s'.run, s')

/-- `record_cleanup`: also for a run that has ended. -/
def State.recordCleanup (cleanup : RunCleanup) (answers : Answers) (s : State) :
    Except RunError (Run × State) := do
  ensure (cleanup ≠ .pending) .cleanupInvalid
  let current ← s.locked claim ⟨false, true, false⟩ answers
  if current.cleanup = .released ∨ current.cleanup = .terminated then do
    ensure (current.cleanup = cleanup) .cleanupFinal
    pure (current, s)
  else do
    let s' ← s.update fun run => { run with cleanup := cleanup }
    pure (s'.run, s')

end

/-! ## Handoff to the user -/

/-- `HandoffSeal.__post_init__`. -/
def HandoffSeal.check (content : HandoffSeal) : Except RunError Unit := do
  ensure content.completedFields.Nodup .handoffSealInvalid
  if content.takeover then
    ensure (content.actionsCompleted ≤ 4 ∧
      content.completedFields.length ≤ content.actionsCompleted ∧
      content.fieldChecks.values.all (· = none)) .handoffSealInvalid
  else
    ensure (3 ≤ content.actionsCompleted ∧ content.actionsCompleted ≤ 4 ∧
      content.completedFields = [] ∧
      content.fieldChecks.values.all (· = some true)) .handoffSealInvalid

def Payload.fillStopReceipt? : Payload → Option FillStopReport
  | .fillStopReceipt report => some report
  | _ => none

def Payload.handoffSealed? : Payload → Option Sealed
  | .handoffSealed facts => some facts
  | _ => none

def Payload.handoffClosed? : Payload → Option HandoffReason
  | .handoffClosed reason => some reason
  | _ => none

/-- `_handoff_in_session`: the seal names the revision it was written at. -/
def State.handoff (s : State) : Except RunError (Option Sealed) :=
  let id := EventId.handoffSealed s.run.admission.runId
  match s.event id with
  | none => .ok none
  | some event =>
    match event.payload.handoffSealed? with
    | none => .error .writeAuditInvalid
    | some facts => do
      ensure (facts.stateRevision = event.runRevision ∧ 1 ≤ event.runRevision ∧
        event.runRevision ≤ s.run.stateRevision ∧ facts.content.completedFields.Nodup ∧
        (facts.content.completedFields ≠ [] → facts.content.takeover)) .writeAuditInvalid
      pure (some facts)

def RunEnv.fillStopPublication (env : RunEnv) (run : Run) : Except RunError Bool := do
  let manifest ← env.frozenPublication run
  pure (manifest.executionMode = .dFormFillStop)

/-- The seal of a run of a fill-stop publication, and none of any other. -/
def State.fillStopHandoff (env : RunEnv) (s : State) : Except RunError (Option Sealed) := do
  let fillStop ← env.fillStopPublication s.run
  if fillStop then s.handoff else pure none

def FillStopReport.restatedBy (report : FillStopReport) (content : HandoffSeal) : Prop :=
  report.executionStatus = (if content.takeover then .takeoverStopped else .filledStopped) ∧
    report.verification = (if content.takeover then .incomplete else .verified) ∧
    report.errorCode = (if content.takeover then .humanTakeover else .ok) ∧
    report.submitActions = 0 ∧ report.actionsCompleted = content.actionsCompleted ∧
    report.fieldChecks = content.fieldChecks ∧
    report.completedFields = content.completedFields

instance (report : FillStopReport) (content : HandoffSeal) :
    Decidable (report.restatedBy content) := by
  unfold FillStopReport.restatedBy
  infer_instance

def State.enterHandoff (env : RunEnv) (claim : Run) (content : HandoffSeal) (answers : Answers)
    (s : State) : Except RunError (Run × State) := do
  content.check
  let current ← s.locked claim Fence.held answers
  let fillStop ← env.fillStopPublication current
  ensure (fillStop ∧ current.status = .running ∧
    (current.phase = some .running ∨ current.phase = some .verifying) ∧
    current.effect = .acknowledged ∧ current.verification = none ∧
    ¬current.cancelRequested ∧ current.leaseEpoch.isSome) .handoffStateInvalid
  let runId := current.admission.runId
  let receipt ← s.writeEvent (.fillStopReceipt runId) Payload.fillStopReceipt?
  ensure (∃ report ∈ receipt, report.restatedBy content) .handoffSealMismatch
  let before ← s.writeEvent (.handoffSealed runId) Payload.handoffSealed?
  ensure (before = none) .handoffAlreadySealed
  let deadline := min (s.clock + handoffWait)
    (current.admission.authExpiresAt - handoffAuthMargin)
  let s₁ ← s.update fun run => { run with
    phase := some .waitingUser
    status := .waitingUser }
  let s₂ ← s₁.transitionTask .waitingUser none
  let s₃ ← s₂.appendEvent ⟨.handoffSealed runId, s₂.run.stateRevision,
    .handoffSealed ⟨s₂.run.stateRevision, s.clock, deadline, content⟩⟩
  pure (s₃.run, s₃)

section

variable (env : RunEnv) (initial : Run) (answers : Answers) (s : State)

/-- The locked part of `request_handoff_check`. -/
def State.requestHandoffCheck : Except RunError (Run × State) := do
  let current ← s.locked initial ⟨false, true, true⟩ answers
  let record ← s.fillStopHandoff env
  match record with
  | none => .error .handoffNotWaiting
  | some facts => do
    ensure (current.status.active ∧ current.verification = none ∧ ¬current.cancelRequested)
      .handoffNotWaiting
    ensure (s.clock < facts.deadline) .handoffExpired
    if current.phase = some .verifying then pure (current, s)
    else do
      ensure (current.phase = some .waitingUser ∧ .verifying ∈ RunPhase.waitingUser.next ∧
        current.effect = .acknowledged) .handoffNotWaiting
      let s₁ ← s.update fun run => { run with
        phase := some .verifying
        status := .running }
      let s₂ ← s₁.transitionTask .running none
      pure (s₂.run, s₂)

def State.settleHandoffCheck (claim : Run) (outcome : HandoffSettleOutcome) (answers : Answers)
    (s : State) : Except RunError (Run × State) := do
  let current ← s.locked claim Fence.held answers
  let fillStop ← env.fillStopPublication current
  ensure fillStop .handoffStateInvalid
  let record ← s.handoff
  ensure (record.isSome ∧ current.status = .running ∧ current.phase = some .verifying ∧
    current.effect = .acknowledged ∧ current.verification = none) .handoffStateInvalid
  ensure (¬current.cancelRequested) .cancelRequested
  let s₁ ← s.update fun run => { run with
    phase := some .waitingUser
    status := .waitingUser }
  let s₂ ← s₁.transitionTask .waitingUser none
  let revision := s₂.run.stateRevision
  let s₃ ← s₂.appendEvent ⟨.handoffChecked current.admission.runId revision, revision,
    .handoffChecked outcome s.clock⟩
  pure (s₃.run, s₃)

/-- The end of a handoff, with the event that closes it. -/
def State.closeHandoff (reason : HandoffReason) : Except RunError (Run × State) := do
  let s₁ ← s.finalizeLocked .failed (some verificationFailedCode) (some .incomplete) none
  let s₂ ← s₁.appendEvent ⟨.handoffClosed s.run.admission.runId, s₁.run.stateRevision,
    .handoffClosed reason⟩
  pure (s₂.run, s₂)

/-- `finalize_handoff`; loss of authority is not one of its reasons. -/
def State.finalizeHandoff (claim : Run) (reason : HandoffReason) (answers : Answers) (s : State) :
    Except RunError (Run × State) := do
  ensure (reason ≠ .authorityLost) .handoffStateInvalid
  let current ← s.locked claim Fence.held answers
  let record ← s.handoff
  match record with
  | none => .error .handoffStateInvalid
  | some facts => do
    ensure (current.verification = none) .handoffStateInvalid
    ensure (reason = .deadline → facts.deadline ≤ s.clock) .handoffNotExpired
    s.closeHandoff reason

/-- The locked part of `expire_lost_handoff`. -/
def State.expireLostHandoff : Except RunError (Run × State) := do
  let current ← s.locked initial ⟨false, false, false⟩ answers
  let record ← s.fillStopHandoff env
  ensure (record.isSome ∧ current.status.active ∧
    (current.phase = some .waitingUser ∨ current.phase = some .verifying) ∧
    current.effect = .acknowledged ∧ current.verification = none) .handoffNotSealed
  let reason ← answers.expiry
  s.closeHandoff reason

/-- The locked part of `record_historical_handoff_quarantine`. -/
def State.recordHistoricalHandoffQuarantine : Except RunError (Run × State) := do
  let current ← s.locked initial ⟨false, true, false⟩ answers
  let sealed ← s.handoff
  let closed ← s.writeEvent (.handoffClosed current.admission.runId) Payload.handoffClosed?
  ensure (sealed.isSome ∧ closed.isSome) .handoffNotSealed
  answers.check 1
  if current.cleanup = .quarantined then pure (current, s)
  else do
    let s' ← s.update fun run => { run with cleanup := .quarantined }
    pure (s'.run, s')

end

end EternalAI.Runs
