import EternalAI.Leases.Model

/-!
# Browser runs — rows, journal and manifests

The data of `app/ports/browser_run_store.py` and of the table `browser_runs`: a
run with its worker, its lease, its effect, its verification and its cleanup,
beside the status of its task and the journal of signed task events.

* The id of a journal event is derived from what it is about, so it is a value of
  `EventId`. Only the store can sign an event, so the payload of a stored event is
  the one it was written with.
* The publication of the run is frozen and is part of `RunEnv`; the rows of the
  human gate and the version bindings of the task may change at any time.
-/

namespace EternalAI.Runs

open Lib
open Dispatch (Str Time)
open Leases (Bytes Owner TargetSystem)

/-! ## Vocabulary -/

inductive RunStatus where
  | running | waitingUser | completed | failed | cancelled
  deriving DecidableEq, Repr

inductive TaskStatus where
  | created | running | waitingUser | completed | failed | cancelled
  deriving DecidableEq, Repr

def RunStatus.task : RunStatus → TaskStatus
  | .running => .running
  | .waitingUser => .waitingUser
  | .completed => .completed
  | .failed => .failed
  | .cancelled => .cancelled

def RunStatus.active : RunStatus → Bool
  | .running | .waitingUser => true
  | .completed | .failed | .cancelled => false

inductive RunPhase where
  | queued | acquiring | running | verifying | waitingUser
  deriving DecidableEq, Repr

/-- `_PHASE_TRANSITIONS`. -/
def RunPhase.next : RunPhase → List RunPhase
  | .queued => [.acquiring]
  | .acquiring => [.running, .waitingUser]
  | .running => [.verifying, .waitingUser]
  | .verifying => [.waitingUser]
  | .waitingUser => [.verifying]

inductive CaptureStatus where
  | notRequested | prepared | sent | unknown | validated | promoted | failed | quarantined
  deriving DecidableEq, Repr

/-- `_CAPTURE_TERMINAL`. -/
def CaptureStatus.terminal : CaptureStatus → Bool
  | .notRequested | .promoted | .failed | .quarantined => true
  | .prepared | .sent | .unknown | .validated => false

/-- `_CAPTURE_TRANSITIONS`. -/
def CaptureStatus.next : CaptureStatus → List CaptureStatus
  | .notRequested => [.prepared]
  | .prepared => [.sent, .failed, .quarantined]
  | .sent => [.unknown, .validated, .failed, .quarantined]
  | .unknown => [.validated, .failed, .quarantined]
  | .validated => [.promoted, .failed, .quarantined]
  | .promoted | .failed | .quarantined => []

inductive RunEffect where
  | notSent | acknowledged | unknown
  deriving DecidableEq, Repr

inductive RunVerification where
  | verified | mismatch | incomplete | unsupported
  deriving DecidableEq, Repr

inductive RunCleanup where
  | pending | released | terminated | quarantined | failed
  deriving DecidableEq, Repr

inductive DispatchFailureCode where
  | unavailable | overloaded | invalidRequest | resourceNotFound | unsupported | denied | stale
  | subjectMismatch | invalidResponse | timeout | cancelled | effectUnknown | quarantined
  deriving DecidableEq, Repr

inductive HandoffSettleOutcome where
  | notFound | unavailable | unsupported
  deriving DecidableEq, Repr

/-- `HandoffCloseReason` and `HandoffExpiryReason`. -/
inductive HandoffReason where
  | deadline | windowClosed | interrupted | authorityLost
  deriving DecidableEq, Repr

/-- `BrowserRunStoreError`, by its code; `authority` is whatever an authority port
raises, `storage` whatever the database does. -/
inductive RunError where
  | ttlInvalid | errorCodeInvalid | runNotFound | runStale | workerStale | revisionExhausted
  | workerEpochExhausted | candidateIneligible | candidateBusy | checkpointStale | authExpired
  | transitionInvalid | leaseInvalid | leaseAlreadyBound | resultPurposeInvalid | cancelRequested
  | verificationStale | captureNotReady | profileTransactionRequired | captureTransitionInvalid
  | cancelNotRequested | taskStale | terminalInvalid | cleanupInvalid | cleanupFinal
  | handoffSealInvalid | handoffStateInvalid | handoffSealMismatch | handoffAlreadySealed
  | handoffNotWaiting | handoffExpired | handoffNotExpired | handoffNotSealed
  | stepPublicationUnavailable | stepPublicationInvalid | writeAuditInvalid | writeEffectUnproved
  | writePreparationMissing | writePreparationMismatch | writePreparationStale
  | writePreparationInvalid | writeTaskBindingInvalid | writeConfirmationMissing
  | writeConfirmationMismatch | writeConfirmationExpired | writeConfirmationUnapproved
  | writeConfirmationNotConsumed | writeConfirmationReused | writeSequenceInvalid
  | writeSequenceConflict | writeDispatchStale | writeDispatchMismatch | writeSendReused
  | writeSendUnreserved | writeBarrierReused | writeBarrierMissing | fillStopReceiptDenied
  | fillStopReceiptConflict | fillStopDispatchStale | fillStopDispatchMismatch
  | stepSequenceInvalid | stepReceiptInvalid | stepAuditInvalid | stepAuditStale
  | stepAuditPublicationMismatch | stepAuditSequenceConflict | stepAuditIncomplete
  | stepAuditOverflow | stepPrimitiveUnregistered | traversalAuditInvalid | traversalAuditStale
  | traversalAuditIncomplete | traversalAuditSequenceConflict | traversalAuditReused
  | authority | storage
  deriving DecidableEq, Repr

def maxRunRevision : Nat := 9007199254740991

def maxStepAudits : Nat := 126

/-- `HANDOFF_WAIT_SECONDS`, in microseconds. -/
def handoffWait : Time := 1800 * 1000000

/-- `HANDOFF_AUTH_MARGIN_SECONDS`, in microseconds. -/
def handoffAuthMargin : Time := 120 * 1000000

/-! ## Rows -/

inductive EventId where
  | terminal (runId : Str)
  | fillStopReceipt (runId : Str)
  | handoffSealed (runId : Str)
  | handoffChecked (runId : Str) (revision : Nat)
  | handoffClosed (runId : Str)
  | writePrepared (runId : Str)
  | writeConsumed (requestId : Str)
  | writeSend (runId : Str) (sequence : Nat)
  | fillStopSend (runId : Str)
  | writeBarrier (runId : Str) (sequence : Nat)
  | runStep (runId : Str) (sequence : Nat)
  | traversalTerminal (runId : Str)
  deriving DecidableEq

/-- `ProtectedRunEnvelope`. -/
structure Envelope where
  (cipherVersion keyId : Str)
  (nonce ciphertext : Bytes)
  deriving DecidableEq

/-- `verified-session-v1`. -/
inductive EvidenceVersion where
  | verifiedSession
  deriving DecidableEq, Repr

/-- `RunAdmission`. -/
structure Admission where
  owner : Owner
  (taskId runId : Str)
  targetSystem : TargetSystem
  bindingId : Str
  bindingRevision : Nat
  authFingerprint : Bytes
  authExpiresAt : Time
  publicationDigest : Bytes
  inputRevision : Nat
  inputDigest : Bytes
  protectedInput : Envelope
  authEvidenceVersion : EvidenceVersion
  deriving DecidableEq

/-- A row of `browser_runs`, which is also `RunSnapshot`. -/
structure Run where
  admission : Admission
  stateRevision : Nat
  status : RunStatus
  phase : Option RunPhase
  workerId : Option Str
  workerEpoch : Nat
  workerDeadline : Option Time
  providerKey : Option Str
  providerManifestDigest : Option Bytes
  leaseEpoch : Option Nat
  (profileGenerationId captureOperationId : Option Str)
  captureStatus : CaptureStatus
  (cancelRequested cancelAcknowledged : Bool)
  effect : RunEffect
  verification : Option RunVerification
  verificationEvidenceDigest : Option Bytes
  cleanup : RunCleanup
  errorCode : Option Str
  dispatchFailureCode : Option DispatchFailureCode
  terminalRevision : Option Nat
  terminalEventId : Option EventId
  resultDigest : Option Bytes
  protectedResult : Option Envelope
  deriving DecidableEq

/-- The row that an acceptance inserts: the admission and the column defaults. -/
def Run.accepted (admission : Admission) : Run where
  admission := admission
  stateRevision := 0
  status := .running
  phase := some .queued
  workerId := none
  workerEpoch := 0
  workerDeadline := none
  providerKey := none
  providerManifestDigest := none
  leaseEpoch := none
  profileGenerationId := none
  captureOperationId := none
  captureStatus := .notRequested
  cancelRequested := false
  cancelAcknowledged := false
  effect := .notSent
  verification := none
  verificationEvidenceDigest := none
  cleanup := .pending
  errorCode := none
  dispatchFailureCode := none
  terminalRevision := none
  terminalEventId := none
  resultDigest := none
  protectedResult := none

/-! ## Manifests and commands -/

inductive Operation where
  | click | fill | selectOption | read | navigate | check | pressEnter | wait
  deriving DecidableEq, Repr

inductive StepEffect where
  | readOnly | mayWrite
  deriving DecidableEq, Repr

/-- `EffectFact.actual_effect`: what the site is known to do. -/
inductive ActualEffect where
  | readOnly | mayWrite | unknown
  deriving DecidableEq, Repr

def StepEffect.actual : StepEffect → ActualEffect
  | .readOnly => .readOnly
  | .mayWrite => .mayWrite

/-- `SkillStep`; its locator and its references are compared as one. -/
structure SkillStep where
  stepId : Str
  operation : Operation
  effect : StepEffect
  arguments : Bytes
  deriving DecidableEq

/-- `SiteStepRule`; its criteria and its proof are compared as one. -/
structure SiteStepRule where
  step : SkillStep
  regionId : Str
  actualEffect : ActualEffect
  criteria : Bytes
  deriving DecidableEq

/-- `RegisteredTraversal`; its rules are compared as one. -/
structure Traversal where
  advanceStepId : Str
  maxPages : Nat
  rules : Bytes
  deriving DecidableEq

/-- `PageEvidence`, beside its terminal mark compared as one. -/
structure PageEvidence where
  terminalSeen : Bool
  content : Bytes
  deriving DecidableEq

inductive ExecutionMode where
  | browserAsync | dFormFillStop
  deriving DecidableEq, Repr

/-- The parts of `BrowserPublicationManifest` that the store reads. No step id comes
twice among the steps, nor among the rules of the site. -/
structure Manifest where
  digest : Bytes
  controlledWrite : Bool
  executionMode : ExecutionMode
  (skillId skillVersion : Str)
  skillDigest : Bytes
  steps : List SkillStep
  siteId : Str
  (siteDigest policyDigest : Bytes)
  objectType : Str
  (siteSteps primitiveRules : List SiteStepRule)
  stepPrimitives : List (Str × Str)
  traversal : Option Traversal
  exploration : Option Nat
  verifierId : Str
  verifierDigest : Bytes
  deriving DecidableEq

structure ScopeBinding where
  owner : Owner
  bindingId : Str
  bindingRevision : Nat
  authorizationRevision : Option Nat
  leaseEpoch : Nat
  authorizationRunId : Option Str
  evidenceVersion : Option EvidenceVersion
  deriving DecidableEq

/-- `ActionCommand`; target and option are compared as one. -/
structure ActionCommand where
  skillDigest : Bytes
  step : SkillStep
  binding : ScopeBinding
  target : Bytes
  deriving DecidableEq

/-- The parts of `ReadSpec` that are compared with the preparation. -/
structure ReadSpec where
  binding : ScopeBinding
  objectType : Str
  keyDigest : Bytes
  confirmationRef : Str
  deriving DecidableEq

/-- `ScopeStamp`, beside its region compared as one. -/
structure ScopeStamp where
  regionId : Str
  content : Bytes
  deriving DecidableEq

inductive DispatchState where
  | notSent | possiblySent | acknowledged
  deriving DecidableEq, Repr

structure DispatchReceipt where
  skillDigest : Bytes
  stepId : Str
  state : DispatchState
  evidenceDigest : Option Bytes
  deriving DecidableEq

/-! ## The journal -/

/-- `BrowserWritePreparation`. -/
structure WritePreparation where
  (requestId taskId runId : Str)
  (ownerDigest publicationDigest : Bytes)
  (skillId skillVersion : Str)
  skillDigest : Bytes
  siteId : Str
  siteDigest : Bytes
  verifierId : Str
  verifierDigest : Bytes
  bindingId : Str
  (bindingRevision inputRevision : Nat)
  parameterSetDigest : Bytes
  objectType : Str
  businessKeyDigest : Bytes
  businessKeyConfirmationRef : Str
  (writeStepsDigest bindingManifestDigest : Bytes)
  (requestedAt expiresAt : Time)
  (actionDigest requestDigest : Bytes)
  deriving DecidableEq

structure Epochs where
  worker : Nat
  lease : Option Nat
  deriving DecidableEq

inductive FillStopField where
  | category | position | description
  deriving DecidableEq, Repr

structure FillStopChecks where
  (category position description : Option Bool)
  deriving DecidableEq

/-- The three checks, as `model_dump().values()`. -/
def FillStopChecks.values (checks : FillStopChecks) : List (Option Bool) :=
  [checks.category, checks.position, checks.description]

inductive FillStopStatus where
  | filledStopped | takeoverStopped | failed | cancelled | unknown
  deriving DecidableEq, Repr

inductive FillStopVerification where
  | verified | mismatch | incomplete | unknown
  deriving DecidableEq, Repr

/-- `FillStopCode`: the two codes the store looks for, and the failures. -/
inductive FillStopCode where
  | ok | humanTakeover | failure (code : Str)
  deriving DecidableEq

structure FillStopReport where
  executionStatus : FillStopStatus
  verification : FillStopVerification
  fieldChecks : FillStopChecks
  (actionsAttempted actionsCompleted submitActions : Nat)
  seconds : Str
  errorCode : FillStopCode
  cleanupConfirmed : Bool
  completedFields : List FillStopField
  deriving DecidableEq

structure HandoffSeal where
  (automationEvidenceDigest automationResultDigest : Bytes)
  actionsCompleted : Nat
  fieldChecks : FillStopChecks
  takeover : Bool
  completedFields : List FillStopField
  deriving DecidableEq

/-- The facts of `browser_handoff_sealed`. -/
structure Sealed where
  stateRevision : Nat
  (sealedAt deadline : Time)
  content : HandoffSeal
  deriving DecidableEq

/-- The facts of `browser.write_consumed.v1`. -/
structure Consumed where
  requestId : Str
  actionDigest : Bytes
  epochs : Epochs
  deriving DecidableEq

/-- The facts of `browser.write_send_reserved.v1` for one step. -/
structure Send where
  requestId : Str
  actionDigest : Bytes
  sequence : Nat
  stepId : Str
  epochs : Epochs
  deriving DecidableEq

/-- The same for a whole fill-stop flow. -/
structure FillStopSend where
  requestId : Str
  (actionDigest writeStepsDigest : Bytes)
  epochs : Epochs
  deriving DecidableEq

/-- The facts of `browser.write_final_barrier.v1`. -/
structure Barrier where
  sequence : Nat
  stepId : Str
  epochs : Epochs
  deriving DecidableEq

/-- `RunTeachingStep` with its `TrajectoryEvent`. -/
structure TeachingStep where
  sequence : Nat
  stepId : Str
  effect : StepEffect
  operation : Operation
  scope : ScopeStamp
  (target policyDigest : Bytes)
  skillVersion : Str
  skillDigest : Bytes
  binding : ScopeBinding
  primitiveId : Str
  (ruleDigest dispatchEvidenceDigest : Bytes)
  deriving DecidableEq

/-- The facts of `browser.traversal_terminal.v1`. -/
structure TraversalTerminal where
  publicationDigest : Bytes
  epochs : Epochs
  (sequence pageCount : Nat)
  pageChainDigest : Bytes
  deriving DecidableEq

inductive Payload where
  | terminal (status : RunStatus) (errorCode : Option Str) (stateRevision : Nat)
  | fillStopReceipt (report : FillStopReport)
  | handoffSealed (facts : Sealed)
  | handoffChecked (outcome : HandoffSettleOutcome) (checkedAt : Time)
  | handoffClosed (reason : HandoffReason)
  | writePrepared (preparation : WritePreparation)
  | writeConsumed (facts : Consumed)
  | writeSend (facts : Send)
  | fillStopSend (facts : FillStopSend)
  | writeBarrier (facts : Barrier)
  | runStep (step : TeachingStep)
  | traversalTerminal (facts : TraversalTerminal)
  deriving DecidableEq

structure Event where
  id : EventId
  runRevision : Nat
  payload : Payload
  deriving DecidableEq

/-! ## The state -/

/-- A row of `human_gate_requests`: the request, and the decision if there is one. -/
structure GateRow where
  taskId : Str
  owner : Owner
  (actionDigest requestDigest bindingManifestDigest : Bytes)
  (requestedAt expiresAt : Time)
  confirmed : Bool
  decidedBy : Option Owner
  decidedAt : Option Time
  deriving DecidableEq

/-- A row of `tasks`, as far as the run store changes it. -/
structure Task where
  status : TaskStatus
  errorCode : Option Str
  deriving DecidableEq

structure SkillBinding where
  (resourceId version : Str)
  digest : Bytes
  deriving DecidableEq

/-- What is fixed for the run: its publication, if there is a valid one, and the
digests of an owner, of rules and of a covering page chain. -/
structure RunEnv where
  publication : Option Manifest
  ownerDigest : Owner → Bytes
  ruleDigest : SiteStepRule → Bytes
  rulesDigest : List SiteStepRule → Bytes
  pageChain : Traversal → List PageEvidence → Option Bytes

structure State where
  clock : Time
  task : Task
  run : Run
  events : List Event
  gates : Str → Option GateRow
  bindings : Bytes → Option (List SkillBinding)

def State.event (s : State) (id : EventId) : Option Event := lookup Event.id id s.events

end EternalAI.Runs
