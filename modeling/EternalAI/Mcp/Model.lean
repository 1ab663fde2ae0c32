import EternalAI.Lib.Json

/-!
# Governed MCP operations — data model

The values of `app/mcp`, `app/ports/mcp.py`, `app/ports/workflow_store.py` and
`app/ports/human_gate.py` that a governed external write is made of: the
operation and its stored checkpoint, the authorization context, the human gate
and its decisions.

Three things are kept abstract on purpose.

* **Digests.** `digest` is SHA-256 over a canonical JSON text. The model takes a
  type `δ` of digests and a `DigestScheme`, and never looks inside a digest; the
  results that need it assume `digest` injective. `Payload` has one constructor
  for each key set that the code digests.
* **Encryption.** `Sealed` is an ideal AEAD box: it opens under the associated
  data it was sealed with and under no other.
* **Time** is an `Int`, an instant on the UTC clock.
-/

namespace EternalAI.Mcp

open Lib

/-! ## Operations -/

inductive OperationState where
  | ready
  | waitingLocalConfirm
  | waitingExternalConfirm
  | sending
  | unknown
  | verifiedSuccess
  | failed
  | cancelled
  | expired
  deriving DecidableEq, Repr

/-- `McpAuthorizationContext`: built from authenticated state only. -/
structure McpAuthorizationContext where
  (tenantId userId loginSessionFingerprint taskId chatSessionId : String)
  targetSystem : String := "business_platform"
  serviceConfigId : String
  serviceConfigVersion : Nat
  connectionId : String
  (bindingEpoch grantEpoch : Int)
  (registrationId capabilityId capabilityVersion : String)
  operationId : Option String := none
  workflowAuthorizationRef : Option String := none
  deriving DecidableEq

structure ToolBinding where
  (capabilityId capabilityVersion serviceConfigId remoteTool inputDigest safetyDigest : String)
  (outputContractVersion policyVersion : String)
  internalOnly : Bool := false
  deriving DecidableEq

/-- `WorkflowOperation`: the durable state of one governed external write. -/
structure WorkflowOperation (δ : Type) where
  operationId : String
  context : McpAuthorizationContext
  (outerCapabilityId outerVersion leafCapabilityId leafVersion remoteTool : String)
  arguments : Json
  (canonicalArgsDigest actionDigest : δ)
  gateRequestId : Option String := none
  state : OperationState := .waitingLocalConfirm
  revision : Nat := 1
  attemptId : Option String := none
  sendStarted : Bool := false
  expiresAt : Int
  artifactExpiresAt : Option Int := none
  argumentPreview : List (String × Json) := []
  externalConfirmationRequired : Bool := false
  reviewUrl : Option String := none
  safeOutput : Json := .obj []
  publicResult : Option Json := none
  identityEvidenceDigest : δ
  previousAttempts : List String := []
  confirmationErrorCode : Option String := none
  deriving DecidableEq

/-- `_validate_confirmation_failure`: a presend failure code is only carried by
a failed operation whose send never started. -/
def WorkflowOperation.validate {δ : Type} (op : WorkflowOperation δ) : Bool :=
  op.confirmationErrorCode.isNone || (op.state == .failed && !op.sendStarted)

structure GovernedWorkflowAuthorization where
  (operationId attemptId : String)
  expectedRevision : Nat
  deriving DecidableEq

/-! ## Human gate -/

structure HumanGateRequest (δ : Type) where
  (requestId taskId requestedForAiUserId requestedSessionId requestedTenantId : String)
  (actionDigest requestDigest : δ)
  bindingManifestDigest : String
  (requestedAt expiresAt : Int)
  deriving DecidableEq

inductive HumanGateDecision where
  | confirmed
  | rejected
  deriving DecidableEq, Repr

structure HumanGateDecisionRecord (δ : Type) where
  (requestId taskId decidedByAiUserId decidedSessionId decidedTenantId : String)
  decision : HumanGateDecision
  requestDigest : δ
  bindingManifestDigest : String
  decidedAt : Int
  deriving DecidableEq

/-- A row of `human_gate_requests`: the request and, once taken, its decision. -/
structure GateRow (δ : Type) where
  request : HumanGateRequest δ
  decision : Option (HumanGateDecisionRecord δ) := none
  deriving DecidableEq

/-! ## Digests and sealed payloads -/

/-- The associated data of an operation row, `_aad`. -/
structure Aad where
  (operationId tenantId userId serviceConfigId : String)
  deriving DecidableEq

/-- What `digest` is applied to: one constructor for each key set. -/
inductive Payload (δ : Type) where
  | action (context : McpAuthorizationContext) (arguments : Json) (manifest : String)
      (outer outerVersion : String) (mapping : ToolBinding)
  | request (operationId : String) (actionDigest : δ)
  | rebind (originalAction : δ) (revision : Nat) (context : McpAuthorizationContext)
  | renewal (originalAction : δ) (revision : Nat) (context : McpAuthorizationContext)
      (recoveryPolicy : String)
  | takeover (previousAction : δ) (context : McpAuthorizationContext) (recoveryPolicy : String)
  | arguments (value : Json)
  | evidence (value : String)
  | aad (value : Aad)

/-- How digests are computed and read: the digest itself, its first 32
characters, and whether it is 64 characters of lower-case hexadecimal. -/
structure DigestScheme (δ : Type) where
  digest : Payload δ → δ
  first32 : δ → String
  hex64 : δ → Bool

/-- Digests that remember what they are digests of. -/
inductive SymbolicDigest where
  | action (context : McpAuthorizationContext) (arguments : Json) (manifest : String)
      (outer outerVersion : String) (mapping : ToolBinding)
  | request (operationId : String) (actionDigest : SymbolicDigest)
  | rebind (originalAction : SymbolicDigest) (revision : Nat) (context : McpAuthorizationContext)
  | renewal (originalAction : SymbolicDigest) (revision : Nat) (context : McpAuthorizationContext)
      (recoveryPolicy : String)
  | takeover (previousAction : SymbolicDigest) (context : McpAuthorizationContext)
      (recoveryPolicy : String)
  | arguments (value : Json)
  | evidence (value : String)
  | aad (value : Aad)
  deriving DecidableEq

def SymbolicDigest.of : Payload SymbolicDigest → SymbolicDigest
  | .action c a m o v b => .action c a m o v b
  | .request i d => .request i d
  | .rebind d r c => .rebind d r c
  | .renewal d r c p => .renewal d r c p
  | .takeover d c p => .takeover d c p
  | .arguments v => .arguments v
  | .evidence v => .evidence v
  | .aad v => .aad v

/-- Different payloads have different symbolic digests, so injective digests
exist. -/
theorem SymbolicDigest.of_injective : ∀ {p q : Payload SymbolicDigest}, of p = of q → p = q := by
  intro p q hEq
  cases p <;> cases q <;> simp [of] at hEq ⊢ <;> assumption

structure Sealed (δ : Type) where
  aad : Aad
  payload : WorkflowOperation δ

/-- `checkpoint` of a workflow run row. -/
structure Checkpoint where
  (definition version : String)
  state : OperationState
  (revision stepIndex : Nat)
  gateRequestId : Option String
  deriving DecidableEq

/-- A row of `mcp_operations` joined with its row of `mcp_workflow_runs`. -/
structure OperationRow (δ : Type) where
  (operationId tenantId userId serviceConfigId taskId : String)
  state : OperationState
  revision : Nat
  attemptId : Option String
  sendStarted : Bool
  expiresAt : Int
  encryptedPayload : Sealed δ
  checkpoint : Checkpoint

/-- Failures of the modelled calls: the codes of `McpFailure`, the gate's
conflict, and any other exception. -/
inductive Failure where
  | operationConflict
  | operationUnavailable
  | operationBusy
  | operationTransitionInvalid
  | workflowUnregistered
  | workflowAuthorizationInvalid
  | authorizationInvalid
  | checkpointInconsistent
  | secretUnavailable
  | confirmationUnavailable
  | confirmationExpired
  | confirmationNotExpired
  | confirmationAmbiguous
  | artifactExpired
  | artifactDeadlineUnconfirmed
  | outcomeUnknown
  | recoveryDenied
  | recoveryContractUnconfirmed
  | recoveryReadUnconfirmed
  | manualReconciliationRequired
  | inputInvalid
  | identity (code : String)
  | gateConflict
  | other
  deriving DecidableEq, Repr

/-! ## Policies and sessions -/

/-- `WRITE_TOOLS`, `SUBMIT_TOOLS` and `NON_IDEMPOTENT_TOOLS` of `contracts.py`. -/
def writeTools : List String :=
  ["clothing_plan_preview", "clothing_plan_submit", "talk_preparation_save",
   "talk_record_draft_save", "talk_record_submit", "talk_task_claim"]

@[inherit_doc writeTools]
def submitTools : List String := ["clothing_plan_submit", "talk_record_submit"]

@[inherit_doc writeTools]
def nonIdempotentTools : List String :=
  ["clothing_plan_preview", "talk_preparation_save", "talk_record_draft_save"]

/-- `GovernedWorkflowPolicy`: the approved manifest of a governed workflow. The
fields that are fixed by their type (`risk`, `retry_limit`,
`confirmation_required`) are left out. -/
structure GovernedWorkflowPolicy where
  (serviceConfigId outerCapabilityId leafCapabilityId remoteTool version : String)
  recoveryCapabilityId : Option String := none
  deriving DecidableEq

/-- The part of `McpRecoveryPolicyPort` that answers at once; what it answers
asynchronously is an input from the environment. -/
structure RecoveryPolicy (δ : Type) where
  approved : Bool
  version : String
  sameSubject : δ → String → Bool
  recordId : WorkflowOperation δ → Option String

/-- `McpSubmitPreconditionPort`, likewise. -/
structure SubmitPrecondition where
  approved : Bool
  version : String

/-- `AuthenticatedSessionContext`: who makes a call. -/
structure Session where
  (aiUserId tenantId fingerprint : String)
  expiresAt : Int
  deriving DecidableEq

/-- `Connection` of the MCP store. -/
structure Connection where
  (connectionId registrationId : String)
  serviceConfigVersion : Nat
  (bindingEpoch grantEpoch : Int)
  (loginSessionFingerprint state : String)
  identityEvidence : Option String
  expiresAt : Option Int

/-- `RecoveryResolution.state`. -/
inductive Resolution where
  | verified
  | pending
  | failed
  | retryOriginal
  deriving DecidableEq, Repr

/-- The state of an `McpValidatedOutcome`: one of the two a send can end in. -/
inductive OutcomeState where
  | verifiedSuccess
  | waitingExternalConfirm
  deriving DecidableEq, Repr

def OutcomeState.toState : OutcomeState → OperationState
  | .verifiedSuccess => .verifiedSuccess
  | .waitingExternalConfirm => .waitingExternalConfirm

structure McpValidatedOutcome where
  state : OutcomeState
  persistence : Json
  publicResult : Option Json := none
  reviewUrl : Option String := none

/-- What a governed operation uses of the gateway's `ExecutionResult`. -/
structure ExecutionResult where
  completed : Bool
  errorCode : Option String := none
  mcpOutcome : Option McpValidatedOutcome := none

end EternalAI.Mcp
