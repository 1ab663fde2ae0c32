import EternalAI.Mcp.Store

/-!
# Governed MCP operations — coordinator

`GovernedOperations` of `app/mcp/operations.py`, with the context factory it
uses and the two engine wrappers that take the guard for it, as programs over
the shared `World`. Every `await` on a store, the gate, the gateway or the clock
is an action of its own, so that anything may happen between two of them.

A call is made under a `Session`, the value of `authenticated_session`, and by a
process `pid`, which is what the execution guard is held by. The calls return
the operation they end with; the `WorkflowRunResult` that `result` derives from
it is not modelled.
-/

namespace EternalAI.Mcp

open Lib

variable {δ : Type} [DecidableEq δ]

/-- Raise `e` on `none`. -/
def orRaise {α : Type} (e : Failure) : Option α → Call δ α
  | some a => .ret a
  | none => .raise e

/-! ## Definitions and contexts -/

/-- What `admitted` reads of a workflow step. -/
structure GovernedStep where
  capabilityId : String
  confirmedCapabilityId : Option String := none
  conditional : Bool := false
  staticArguments : List (String × Json) := []

structure GovernedWorkflowDefinition where
  (workflowId version : String)
  policy : Option GovernedWorkflowPolicy
  steps : List GovernedStep

/-- `admitted`: the policy of an approved one-step definition. -/
def admitted (cfg : Config δ) (definition : GovernedWorkflowDefinition) :
    Option GovernedWorkflowPolicy :=
  match definition.policy, definition.steps with
  | some policy, [step] =>
    if cfg.manifests definition.workflowId = some policy ∧
        policy.outerCapabilityId = definition.workflowId ∧
        policy.version = definition.version ∧
        step.capabilityId = policy.leafCapabilityId ∧
        step.confirmedCapabilityId = none ∧ step.conditional = false ∧
        step.staticArguments = [] then
      some policy
    else none
  | _, _ => none

/-- The session belongs to the user and tenant and has not expired. -/
def Session.owns (session : Session) (userId tenantId : String) (now : Int) : Bool :=
  session.aiUserId == userId && session.tenantId == tenantId && decide (now < session.expiresAt)

/-- The checks of `build` on the connection of the session's user. -/
def usableConnection (session : Session) (now : Int) :
    Option Connection → Except Failure Connection
  | none => .error (.identity "mcp_identity_unbound")
  | some c =>
    if c.loginSessionFingerprint ≠ session.fingerprint then .error .authorizationInvalid
    else if c.state = "AUTHORIZING" ∨ c.state = "PENDING_IDENTITY" then
      .error (.identity "mcp_identity_pending")
    else if c.state = "REVOKED" then .error (.identity "mcp_identity_revoked")
    else if c.state = "DISCONNECTED" then .error (.identity "mcp_identity_expired")
    else if c.state = "EXPIRED" ∨ (∃ e ∈ c.expiresAt, e ≤ now) then
      .error (.identity "mcp_identity_expired")
    else if c.state ≠ "ACTIVE" ∨ truthy c.identityEvidence = none then
      .error .authorizationInvalid
    else .ok c

/-- `McpExecutionContextFactory.build`. -/
def buildContext (session : Option Session) (taskId chatSessionId userId tenantId : String)
    (mapping : ToolBinding) (authorization : Option GovernedWorkflowAuthorization := none) :
    Call δ McpAuthorizationContext := do
  let session ← orRaise .authorizationInvalid session
  let t ← now
  .require (session.owns userId tenantId t) .authorizationInvalid
  let found ← .read fun w => (w.env.connection tenantId userId mapping.serviceConfigId, w.env.now)
  let connection ← .ofExcept (usableConnection session found.2 found.1)
  let context : McpAuthorizationContext :=
    { tenantId := tenantId
      userId := userId
      loginSessionFingerprint := session.fingerprint
      taskId := taskId
      chatSessionId := chatSessionId
      serviceConfigId := mapping.serviceConfigId
      serviceConfigVersion := connection.serviceConfigVersion
      connectionId := connection.connectionId
      bindingEpoch := connection.bindingEpoch
      grantEpoch := connection.grantEpoch
      registrationId := connection.registrationId
      capabilityId := mapping.capabilityId
      capabilityVersion := mapping.capabilityVersion
      operationId := authorization.map (·.operationId)
      workflowAuthorizationRef := authorization.map (·.attemptId) }
  let live ← .read (·.env.resolves context)
  .require (live = true) .authorizationInvalid
  return context

/-! ## Ownership -/

def lifecycleOwner (session : Option Session) (op : WorkflowOperation δ) : Call δ Session := do
  let session ← orRaise .authorizationInvalid session
  let t ← now
  .require (session.owns op.context.userId op.context.tenantId t) .authorizationInvalid
  return session

section

variable (cfg : Config δ) (op : WorkflowOperation δ)

def proposalIntact : Prop :=
  ∃ policy ∈ cfg.manifests op.outerCapabilityId,
    policy.version = op.outerVersion ∧ policy.leafCapabilityId = op.leafCapabilityId ∧
    policy.serviceConfigId = op.context.serviceConfigId ∧ policy.remoteTool = op.remoteTool ∧
    cfg.scheme.digest (.arguments op.arguments) = op.canonicalArgsDigest

instance : Decidable (proposalIntact cfg op) :=
  inferInstanceAs (Decidable (∃ policy ∈ cfg.manifests op.outerCapabilityId, _))

def owned (session : Option Session) (op : WorkflowOperation δ) : Call δ Unit := do
  let session ← lifecycleOwner session op
  .require (session.fingerprint = op.context.loginSessionFingerprint) .authorizationInvalid
  let live ← .read (·.env.resolves op.context)
  .require (live = true) .authorizationInvalid
  .require (proposalIntact cfg op) .checkpointInconsistent

/-! ## Confirmation requests -/

/-- The request of the operation's own gate id, or of its current action. -/
def currentRequest : Call δ (Option (HumanGateRequest δ)) :=
  match truthy op.gateRequestId with
  | some id => getRequest id
  | none => confirmation op

/-- The last check of `_gate`: the request is for this context and action, and
does not outlive `expires`. -/
def HumanGateRequest.suits (request : HumanGateRequest δ) (context : McpAuthorizationContext)
    (actionDigest requestDigest : δ) (requestId : String) (binding : String) (expires now : Int) :
    Prop :=
  request.taskId = context.taskId ∧ request.requestedForAiUserId = context.userId ∧
  request.requestedSessionId = context.chatSessionId ∧
  request.requestedTenantId = context.tenantId ∧ request.actionDigest = actionDigest ∧
  request.bindingManifestDigest = binding ∧
  (request.requestId = requestId → request.requestDigest = requestDigest) ∧
  cfg.scheme.hex64 request.requestDigest ∧ request.requestedAt ≤ now ∧
  request.expiresAt ≤ expires

instance (request : HumanGateRequest δ) (context : McpAuthorizationContext)
    (actionDigest requestDigest : δ) (requestId binding : String) (expires now : Int) : Decidable
      (request.suits cfg context actionDigest requestDigest requestId binding expires now) :=
  inferInstanceAs (Decidable (_ ∧ _))

/-- The existing request that `_gate` starts from. -/
def existingRequest (requestId : String) (legacy : Bool) : Call δ (Option (HumanGateRequest δ)) :=
  if legacy then
    match truthy op.gateRequestId with
    | some id => do
      let request ← getRequest id
      let request ← orRaise .checkpointInconsistent request
      return some request
    | none => confirmation op
  else
    getRequest requestId

/-- Create the candidate; on a conflict take what is there under its id. -/
def createOrGet (candidate : HumanGateRequest δ) : Call δ (HumanGateRequest δ) := do
  match ← (createRequest candidate).attempt with
  | .ok request => return request
  | .error .gateConflict =>
    let request ← getRequest candidate.requestId
    orRaise .gateConflict request
  | .error e => .raise e

/-- The request to use, given the existing one or none: a new request is made
out to the candidate's subject at the time of its creation. -/
def existingOrCreate (candidate : Int → HumanGateRequest δ) :
    Option (HumanGateRequest δ) → Call δ (HumanGateRequest δ)
  | some request => return request
  | none => do
    let requestedAt ← now
    .require ((candidate requestedAt).validate cfg) .other
    createOrGet (candidate requestedAt)

/-- `_gate`: find or create the confirmation request of an action. -/
def gate (context : McpAuthorizationContext) (actionDigest : δ) (expires : Int)
    (legacy : Bool := false) : Call δ (HumanGateRequest δ) := do
  let binding ← getTaskBinding
  let binding ← orRaise .workflowAuthorizationInvalid binding
  let requestDigest := cfg.scheme.digest (.request op.operationId actionDigest)
  let requestId := cfg.scheme.first32 requestDigest
  let existing ← existingRequest op requestId legacy
  let request ← existingOrCreate cfg (fun requestedAt =>
    { requestId := requestId
      taskId := context.taskId
      requestedForAiUserId := context.userId
      requestedSessionId := context.chatSessionId
      requestedTenantId := context.tenantId
      actionDigest := actionDigest
      requestDigest := requestDigest
      bindingManifestDigest := binding
      requestedAt := requestedAt
      expiresAt := expires }) existing
  let t ← now
  .require (request.suits cfg context actionDigest requestDigest requestId binding expires t)
    .checkpointInconsistent
  return request

def ensureConfirmation (session : Option Session) (op : WorkflowOperation δ) :
    Call δ (WorkflowOperation δ × HumanGateRequest δ) := do
  owned cfg session op
  .require (op.state = .waitingLocalConfirm) .confirmationUnavailable
  let request ← gate cfg op op.context op.actionDigest op.expiresAt true
  let t ← now
  if request.expiresAt ≤ t then
    let _ ← .atomic (transition op { state := .expired })
    .raise .confirmationExpired
  else if op.gateRequestId ≠ some request.requestId ∨ op.expiresAt ≠ request.expiresAt then
    let op ← .atomic (transition op
      { state := .waitingLocalConfirm
        gateRequestId := some request.requestId
        renewedContext := some op.context
        renewedActionDigest := some op.actionDigest
        renewedGateExpiresAt := some request.expiresAt })
    return (op, request)
  else
    return (op, request)

/-! ## Start -/

/-- A deadline reported by a policy is usable: aware and in the future. -/
def Deadline.live (d : Deadline) (now : Int) : Bool := d.aware && decide (now < d.instant)

def checkDeadline : Option Deadline → Call δ (Option Int)
  | none => return none
  | some d => do
    let t ← now
    .require (d.live t) .artifactExpired
    return some d.instant

/-- The artifact deadline that an approved submit precondition reports. -/
def submitDeadline (cfg : Config δ) (serviceConfigId tool : String) : Call δ (Option Int) :=
  match cfg.submitPreconditions serviceConfigId tool with
  | none => return none
  | some p =>
    if p.approved ∧ p.version ≠ "" then do
      let d ← .read (·.env.submitDeadline)
      checkDeadline d
    else return none

/-- The artifact deadline of a new operation: the submit precondition's, or
else an approved recovery policy's. -/
def artifactDeadline (serviceConfigId tool : String) : Call δ (Option Int) := do
  let submit ← submitDeadline cfg serviceConfigId tool
  match submit, cfg.recoveryPolicies serviceConfigId tool with
  | none, some p =>
    if p.approved ∧ p.version ≠ "" then do
      let d ← .read (·.env.recoveryDeadline)
      checkDeadline d
    else return none
  | submit, _ => return submit

/-- The earlier of two instants, the second of which may be missing. -/
def minDeadline (t : Int) : Option Int → Int
  | some d => min t d
  | none => t

def confirmationWindow : Int := 600

/-- `uuid4().hex`. -/
def freshId : Call δ String :=
  .atomic fun w => .ok (cfg.uuid w.drawn, { w with drawn := w.drawn + 1 })

def start (session : Option Session) (definition : GovernedWorkflowDefinition)
    (sessionId aiUserId tenantId : String) (initialInput : Json) :
    Call δ (WorkflowOperation δ × HumanGateRequest δ) := do
  let policy ← orRaise .workflowUnregistered (admitted cfg definition)
  let existing ← byTask
  .require (existing = none) .operationConflict
  let confirms ← .read (·.env.policyConfirms)
  .require (confirms = true) .workflowAuthorizationInvalid
  let mapping ← .read (·.env.mapping policy.leafCapabilityId policy.version)
  let mapping ← orRaise .workflowUnregistered mapping
  .require (mapping.internalOnly = true ∧ mapping.remoteTool = policy.remoteTool ∧
    mapping.serviceConfigId = policy.serviceConfigId) .workflowUnregistered
  let valid ← .read (·.env.inputValid policy.remoteTool initialInput)
  .require (valid = true) .inputInvalid
  let context ← buildContext session cfg.taskId sessionId aiUserId tenantId mapping
  let operationId ← freshId cfg
  let context := { context with operationId := some operationId }
  let binding ← getTaskBinding
  let binding ← orRaise .workflowAuthorizationInvalid binding
  let session' ← orRaise .other session
  let t ← now
  let expires := min session'.expiresAt (t + confirmationWindow)
  let connection ← .read
    (·.env.connection context.tenantId context.userId context.serviceConfigId)
  let evidence ← orRaise .authorizationInvalid
    (truthy (connection.bind (·.identityEvidence)))
  let deadline ← artifactDeadline cfg context.serviceConfigId policy.remoteTool
  let expires := minDeadline expires deadline
  let preview ← .read (·.env.preview)
  let op : WorkflowOperation δ :=
    { operationId := operationId
      context := context
      outerCapabilityId := definition.workflowId
      outerVersion := definition.version
      leafCapabilityId := policy.leafCapabilityId
      leafVersion := policy.version
      remoteTool := policy.remoteTool
      arguments := initialInput
      canonicalArgsDigest := cfg.scheme.digest (.arguments initialInput)
      actionDigest := cfg.scheme.digest (.action context initialInput binding
        definition.workflowId definition.version mapping)
      expiresAt := expires
      artifactExpiresAt := deadline
      argumentPreview := preview
      externalConfirmationRequired := submitTools.contains policy.remoteTool
      identityEvidenceDigest := cfg.scheme.digest (.evidence evidence) }
  let op ← .atomic (create op)
  ensureConfirmation cfg session op

/-! ## Rebinding to a new login -/

def rebindDigest (originalAction : δ) (revision : Nat) (context : McpAuthorizationContext) : δ :=
  cfg.scheme.digest (.rebind originalAction revision context)

/-- The new context is the same account's: the connection is the same one, and
its identity evidence is that of the operation or vouched for by the recovery
policy. -/
def continuous (context : McpAuthorizationContext) (evidence : Option String) : Bool :=
  match truthy evidence with
  | none => false
  | some evidence =>
    context.connectionId == op.context.connectionId &&
    context.registrationId == op.context.registrationId &&
    context.serviceConfigVersion == op.context.serviceConfigVersion &&
    context.capabilityId == op.context.capabilityId &&
    context.capabilityVersion == op.context.capabilityVersion &&
    (cfg.scheme.digest (.evidence evidence) == op.identityEvidenceDigest ||
      (cfg.recoveryPolicies context.serviceConfigId op.remoteTool).any fun recovery =>
        recovery.approved && recovery.version != "" &&
        recovery.sameSubject op.identityEvidenceDigest evidence)

/-- The rebind proper: the card is not decided, and is renewed under a context
that is rebuilt from the current session. -/
def rebindCard (session : Session) (op : WorkflowOperation δ) (expectedActionDigest : δ)
    (expectedGateRequestId : String) : Call δ (HumanGateRequest δ) := do
  let t ← now
  .require (op.actionDigest = expectedActionDigest ∧ op.state = .waitingLocalConfirm ∧
    op.sendStarted = false) .operationConflict
  let original ← getRequest expectedGateRequestId
  let original ← orRaise .operationConflict original
  let decision ← getDecision original.requestId
  .require (decision = none) .operationConflict
  .require (t < op.expiresAt ∧ t < original.expiresAt) .confirmationExpired
  .require (proposalIntact cfg op) .checkpointInconsistent
  let mapping ← .read (·.env.mapping op.leafCapabilityId op.leafVersion)
  let mapping ← orRaise .authorizationInvalid mapping
  let context ← buildContext session op.context.taskId op.context.chatSessionId
    op.context.userId op.context.tenantId mapping
  let context :=
    { context with operationId := some op.operationId, workflowAuthorizationRef := none }
  let connection ← .read
    (·.env.connection context.tenantId context.userId context.serviceConfigId)
  .require (continuous cfg op context (connection.bind (·.identityEvidence)))
    .authorizationInvalid
  let actionDigest := rebindDigest cfg op.actionDigest op.revision context
  let expires := minDeadline (min op.expiresAt session.expiresAt) op.artifactExpiresAt
  let request ← gate cfg op context actionDigest expires
  let _ ← .atomic (transition op
    { state := .waitingLocalConfirm
      renewedContext := some context
      renewedActionDigest := some actionDigest
      renewedGateExpiresAt := some request.expiresAt
      gateRequestId := some request.requestId })
  return request

end

section

variable (cfg : Config δ) (pid : Nat) (session : Option Session) (op : WorkflowOperation δ)

def rebindCurrentSession (expectedActionDigest : δ) (expectedGateRequestId : String) :
    Call δ (Option (HumanGateRequest δ)) := do
  let session ← lifecycleOwner session op
  let sameLogin := session.fingerprint = op.context.loginSessionFingerprint
  if op.gateRequestId ≠ some expectedGateRequestId then
    -- only this card's own completed rebind is idempotent
    .require (sameLogin ∧ op.actionDigest =
      rebindDigest cfg expectedActionDigest (op.revision - 1) op.context) .operationConflict
    let id ← orRaise .operationConflict (truthy op.gateRequestId)
    let request ← getRequest id
    let request ← orRaise .operationConflict request
    return some request
  else if sameLogin then
    return none
  else
    let request ← rebindCard cfg session op expectedActionDigest expectedGateRequestId
    return some request

/-! ## Sending -/

def verifyWrite (context : McpAuthorizationContext) (authorization : GovernedWorkflowAuthorization)
    (arguments : Json) : Call δ Unit := do
  let op ← load authorization.operationId context.tenantId context.userId
  let op ← orRaise .workflowAuthorizationInvalid op
  let t ← now
  .require (op.state = .ready ∧ op.context = context ∧
    op.revision = authorization.expectedRevision ∧
    op.attemptId = some authorization.attemptId ∧
    op.canonicalArgsDigest = cfg.scheme.digest (.arguments arguments) ∧ t < op.expiresAt)
    .workflowAuthorizationInvalid
  let gateRequestId ← orRaise .workflowAuthorizationInvalid op.gateRequestId
  let request ← getRequest gateRequestId
  let decision ← getDecision gateRequestId
  let request ← orRaise .workflowAuthorizationInvalid request
  let decision ← orRaise .workflowAuthorizationInvalid decision
  let t ← now
  .require (decision.decision = .confirmed ∧ request.actionDigest = op.actionDigest ∧
    request.taskId = context.taskId ∧ request.requestedForAiUserId = context.userId ∧
    request.requestedTenantId = context.tenantId ∧
    request.requestedSessionId = context.chatSessionId ∧ t < request.expiresAt ∧
    decision.requestDigest = request.requestDigest ∧
    decision.bindingManifestDigest = request.bindingManifestDigest)
    .workflowAuthorizationInvalid

def routeError : Failure → String
  | .identity "mcp_identity_unbound" | .identity "mcp_identity_pending" => "identity_unbound"
  | .identity "mcp_identity_expired" => "identity_expired"
  | .identity "mcp_identity_revoked" => "identity_revoked"
  | _ => "policy_denied"

/-- A failure caught where `McpFailure` is, as a refused execution; any other
exception passes. -/
def refusal (code : Failure → String) : Failure → Call δ ExecutionResult
  | .other => .raise .other
  | .gateConflict => .raise .gateConflict
  | e => .ret { completed := false, errorCode := some (code e) }

/-- The gateway's checks of a governed leaf call, which build its context. -/
def routeLeaf (authorization : GovernedWorkflowAuthorization) : Call δ McpAuthorizationContext := do
  let mapping ← .read (·.env.mapping op.leafCapabilityId op.leafVersion)
  let mapping ← orRaise .workflowAuthorizationInvalid mapping
  let context ← buildContext session op.context.taskId op.context.chatSessionId
    op.context.userId op.context.tenantId mapping (some authorization)
  verifyWrite cfg context authorization op.arguments
  return context

/-- `execute_capability` for the leaf of a governed operation. The gateway may
stop the call before or after routing it; the adapter consumes the send
permission once, and only then calls out. -/
def executeLeaf (authorization : GovernedWorkflowAuthorization) : Call δ ExecutionResult := do
  match ← .read (·.env.gatewayStops) with
  | some r => .ofExcept r
  | none =>
    match ← (routeLeaf cfg session op authorization).attempt with
    | .error e => refusal routeError e
    | .ok context =>
      match ← .read (·.env.gatewayStops) with
      | some r => .ofExcept r
      | none =>
        let consumed ← (consume cfg pid authorization context op.leafCapabilityId
          op.arguments).attempt
        match consumed with
        | .error e => refusal (fun _ => "adapter_payload_invalid") e
        | .ok _ =>
          let reply ← .read (·.env.gatewayReply op.leafCapabilityId op.arguments)
          .ofExcept reply

/-- What `_resume_locked` does with the gateway's result. -/
def settleAttempt (result : ExecutionResult) (current : WorkflowOperation δ) :
    Call δ (WorkflowOperation δ) :=
  if current.state = .sending then
    match result.completed, result.mcpOutcome with
    | true, some outcome => .atomic (transition current
        { state := outcome.state.toState
          safeOutput := some outcome.persistence
          publicResult := outcome.publicResult
          reviewUrl := outcome.reviewUrl })
    | _, _ => .atomic (transition current { state := .unknown })
  else if current.state = .ready then
    -- no send permission was consumed: the attempt is closed for good
    .atomic (transition current
      { state := .failed
        confirmationErrorCode := some ((truthy result.errorCode).getD "internal_error") })
  else
    return current

/-- The confirmed part of `_resume_locked`: spend the decision on one attempt. -/
def sendConfirmed (request : HumanGateRequest δ) : Call δ (WorkflowOperation δ) := do
  let op ← .atomic fun w => transition op
    { state := .ready
      gateRequestId := some request.requestId
      attemptId := some (cfg.uuid w.drawn) } { w with drawn := w.drawn + 1 }
  let attemptId ← orRaise .other op.attemptId
  let authorization : GovernedWorkflowAuthorization :=
    { operationId := op.operationId, attemptId := attemptId, expectedRevision := op.revision }
  let result ← executeLeaf cfg pid session op authorization
  let current ← load op.operationId op.context.tenantId op.context.userId
  let current ← orRaise .checkpointInconsistent current
  settleAttempt result current

/-- `_resume_locked` on an operation that waits for its confirmation. -/
def resumeWaiting (confirmed : Bool) (expectedActionDigest : Option δ) :
    Call δ (WorkflowOperation δ) := do
  let t ← now
  if op.expiresAt ≤ t then
    .atomic (transition op { state := .expired })
  else
    .require (confirmed = true ∧ expectedActionDigest = some op.actionDigest)
      .workflowAuthorizationInvalid
    let request ← currentRequest op
    let request ← orRaise .workflowAuthorizationInvalid request
    let decision ← getDecision request.requestId
    let decision ← orRaise .workflowAuthorizationInvalid decision
    let t ← now
    .require (decision.decision = .confirmed ∧
      decision.requestDigest = request.requestDigest ∧ t < request.expiresAt)
      .workflowAuthorizationInvalid
    sendConfirmed cfg pid session op request

def closeSending : Call δ (WorkflowOperation δ) :=
  if op.state = .sending then .atomic (transition op { state := .unknown }) else return op

def resumeLocked (confirmed : Bool) (expectedActionDigest : Option δ) :
    Call δ (WorkflowOperation δ) := do
  owned cfg session op
  let op ← closeSending op
  if op.state = .waitingLocalConfirm then
    resumeWaiting cfg pid session op confirmed expectedActionDigest
  else
    return op

def reload : Call δ (WorkflowOperation δ) := do
  let op ← byTask
  orRaise .operationUnavailable op

def resume (confirmed : Bool) (expectedActionDigest : Option δ) : Call δ (WorkflowOperation δ) := do
  let _ ← reload
  executionGuard pid do
    let current ← reload
    resumeLocked cfg pid session current confirmed expectedActionDigest

/-! ## Closing and recovering -/

/-- Load the operation again under the guard; the caller's view must be current. -/
def reloadCurrent : Call δ (WorkflowOperation δ) := do
  let current ← load op.operationId op.context.tenantId op.context.userId
  let current ← orRaise .operationConflict current
  .require (current.revision = op.revision) .operationConflict
  return current

def recover : Call δ (WorkflowOperation δ) := do
  owned cfg session op
  executionGuard pid do
    let current ← reloadCurrent op
    owned cfg session current
    if current.state = .ready ∧ current.sendStarted = false then
      -- the confirmed attempt never consumed its permission: it is closed
      .atomic (transition current { state := .cancelled })
    else
      .require (current.state = .sending) .recoveryDenied
      .atomic (transition current { state := .unknown })

end

section

variable (cfg : Config δ) (pid : Nat) (session : Option Session) (op : WorkflowOperation δ)

/-- `discard`: whether the task had an operation. -/
def discard : Call δ Bool := do
  match ← byTask with
  | none => return false
  | some _ =>
    executionGuard pid do
      match ← byTask with
      | none => return false
      | some current =>
        owned cfg session current
        if current.state = .waitingLocalConfirm ∨ current.state = .ready then
          let _ ← .atomic (transition current { state := .cancelled })
          return true
        else
          return true

/-- How `retire_owned_confirmation` ended. -/
inductive Retirement where
  | absent
  | superseded
  | retired
  deriving DecidableEq, Repr

inductive RetireReason where
  | expired
  | exception
  | other (reason : String)
  deriving DecidableEq, Repr

/-- The request belongs to the operation's task and owner under the manifest. -/
def HumanGateRequest.ownedBy (request : HumanGateRequest δ) (taskId : String)
    (op : WorkflowOperation δ) (binding : String) : Prop :=
  request.taskId = taskId ∧ request.requestedForAiUserId = op.context.userId ∧
  request.requestedTenantId = op.context.tenantId ∧
  request.requestedSessionId = op.context.chatSessionId ∧
  request.bindingManifestDigest = binding

instance (request : HumanGateRequest δ) (taskId : String) (op : WorkflowOperation δ)
    (binding : String) : Decidable (request.ownedBy taskId op binding) :=
  inferInstanceAs (Decidable (_ ∧ _))

/-- An expired card that a newer one has explicitly replaced. -/
def retireSuperseded (current : WorkflowOperation δ) (expectedActionDigest : δ)
    (expectedGateRequestId : String) (reason : RetireReason) : Call δ Retirement := do
  let old ← getRequest expectedGateRequestId
  let new ← .read fun w => (truthy current.gateRequestId).bind fun id =>
    (w.gateRow id).map (·.request)
  let binding ← getTaskBinding
  let t ← now
  let old ← orRaise .operationConflict old
  let new ← orRaise .operationConflict new
  let binding ← orRaise .operationConflict binding
  .require (reason = .expired ∧ old.requestId ≠ new.requestId ∧
    old.actionDigest = expectedActionDigest ∧ old.expiresAt ≤ t ∧
    old.expiresAt ≤ new.requestedAt ∧ new.actionDigest = current.actionDigest ∧
    new.expiresAt = current.expiresAt ∧ old.ownedBy cfg.taskId current binding ∧
    new.ownedBy cfg.taskId current binding) .operationConflict
  return .superseded

def retireArgs : RetireReason → TransitionArgs δ
  | .expired => { state := .expired }
  | .exception => { state := .failed, confirmationErrorCode := some "internal_error" }
  | .other _ => { state := .cancelled }

/-- `retire_owned_confirmation` under the guard, for the current action. -/
def retireCurrent (current : WorkflowOperation δ) (expectedActionDigest : δ)
    (expectedGateRequestId : String) (reason : RetireReason) : Call δ Retirement := do
  let request ← currentRequest current
  let binding ← getTaskBinding
  let request ← orRaise .operationConflict request
  let binding ← orRaise .operationConflict binding
  .require (request.requestId = expectedGateRequestId ∧
    request.actionDigest = expectedActionDigest ∧
    request.ownedBy cfg.taskId current binding) .operationConflict
  if (current.state = .waitingLocalConfirm ∨ current.state = .ready) ∧
      current.sendStarted = false then
    let t ← now
    .require (reason = .expired → current.expiresAt ≤ t) .confirmationNotExpired
    let _ ← .atomic (transition current (retireArgs reason))
    return .retired
  else
    .require (current.state ∈ [.verifiedSuccess, .failed, .cancelled, .expired])
      .outcomeUnknown
    return .retired

def retireOwnedConfirmation (expectedActionDigest : δ) (expectedGateRequestId : String)
    (reason : RetireReason) : Call δ Retirement := do
  match ← byTask with
  | none => return .absent
  | some op =>
    let _ ← lifecycleOwner session op
    executionGuard pid do
      let current ← reload
      let _ ← lifecycleOwner session current
      if current.actionDigest ≠ expectedActionDigest then
        retireSuperseded cfg current expectedActionDigest expectedGateRequestId reason
      else
        retireCurrent cfg current expectedActionDigest expectedGateRequestId reason

/-! ## Renewal, reconciliation, takeover -/

def recoveryPolicy : Call δ (RecoveryPolicy δ) := do
  let policy ← orRaise .recoveryContractUnconfirmed
    (cfg.recoveryPolicies op.context.serviceConfigId op.remoteTool)
  .require (policy.approved = true ∧ policy.version ≠ "") .recoveryContractUnconfirmed
  return policy

/-- `_renew_confirmation`: a new action digest, a new request, and the operation
waits for that one. -/
def renewConfirmation (context : McpAuthorizationContext) (policyVersion : String) :
    Call δ (WorkflowOperation δ) := do
  let t ← now
  let session ← orRaise .authorizationInvalid session
  .require (t < session.expiresAt) .authorizationInvalid
  .require (op.sendStarted = true → op.artifactExpiresAt ≠ none) .artifactDeadlineUnconfirmed
  .require (∀ d ∈ op.artifactExpiresAt, t < d) .artifactExpired
  let expires := minDeadline (min session.expiresAt (t + confirmationWindow))
    op.artifactExpiresAt
  let actionDigest :=
    cfg.scheme.digest (.renewal op.actionDigest op.revision context policyVersion)
  let request ← gate cfg op context actionDigest expires
  let t ← now
  if request.expiresAt ≤ t then
    if op.state = .waitingLocalConfirm ∧ op.expiresAt ≤ t then
      let _ ← .atomic (transition op { state := .expired })
      .raise .confirmationExpired
    else
      .raise .confirmationExpired
  else
    .atomic (transition op
      { state := .waitingLocalConfirm
        renewedContext := some context
        renewedActionDigest := some actionDigest
        renewedGateExpiresAt := some request.expiresAt
        gateRequestId := some request.requestId })

/-- The arguments of the read that a reconciliation starts with, if it has one. -/
def recoveryArguments (policy : RecoveryPolicy δ) (op : WorkflowOperation δ) :
    Except Failure (Option Json) :=
  if op.remoteTool = "clothing_plan_submit" then
    match op.arguments.get? "artifactId" with
    | some id => .ok (some (.obj [("artifactId", id)]))
    | none => .error .other
  else if op.remoteTool = "talk_task_claim" then
    .ok (some (.obj [("view", .str "mine")]))
  else
    .ok ((policy.recordId op).map fun id => .obj [("recordId", .str id)])

def verifiedRead : Option Json → Call δ (Option Json)
  | none => return none
  | some arguments => do
    let manifest ← orRaise .other (cfg.manifests op.outerCapabilityId)
    let capabilityId ← orRaise .recoveryDenied manifest.recoveryCapabilityId
    let reply ← .read (·.env.recoveryRead capabilityId arguments)
    let data ← .ofExcept reply
    let data ← orRaise .recoveryReadUnconfirmed data
    return some data

/-- `reconcile` once any interrupted send is closed. -/
def reconcileClosed (policy : RecoveryPolicy δ) (op : WorkflowOperation δ) :
    Call δ (WorkflowOperation δ) := do
  .require (op.state = .unknown ∨ op.state = .waitingExternalConfirm) .recoveryDenied
  let arguments ← .ofExcept (recoveryArguments policy op)
  let read ← verifiedRead cfg op arguments
  let decision ← .read (·.env.resolution op read)
  let decision ← .ofExcept decision
  match decision.1 with
  | .verified => .atomic (transition op
      { state := .verifiedSuccess, safeOutput := some decision.2 })
  | .failed => .atomic (transition op { state := .failed, safeOutput := some decision.2 })
  | .pending => return op
  | .retryOriginal => renewConfirmation cfg session op op.context policy.version

/-- Close an interrupted send with `recover` before reconciling it. -/
def recoverSending : Call δ (WorkflowOperation δ) :=
  if op.state = .sending then recover cfg pid session op else return op

def reconcile : Call δ (WorkflowOperation δ) := do
  owned cfg session op
  let policy ← recoveryPolicy cfg op
  .require (op.remoteTool ∉ nonIdempotentTools) .manualReconciliationRequired
  let op ← recoverSending cfg pid session op
  reconcileClosed cfg session policy op

/-- The context a takeover rebuilds from the current session, for the same
subject and registration. -/
def takeoverContext (policy : RecoveryPolicy δ) (op : WorkflowOperation δ) :
    Call δ McpAuthorizationContext := do
  let _ ← lifecycleOwner session op
  let mapping ← .read (·.env.mapping op.leafCapabilityId op.leafVersion)
  let mapping ← orRaise .authorizationInvalid mapping
  let context ← buildContext session op.context.taskId op.context.chatSessionId
    op.context.userId op.context.tenantId mapping
  let context := { context with operationId := some op.operationId }
  let connection ← .read
    (·.env.connection context.tenantId context.userId context.serviceConfigId)
  let evidence ← orRaise .authorizationInvalid
    (truthy (connection.bind (·.identityEvidence)))
  .require (policy.sameSubject op.identityEvidenceDigest evidence = true ∧
    context.registrationId = op.context.registrationId) .authorizationInvalid
  return context

def takeoverLocked : Call δ (WorkflowOperation δ) := do
  let policy ← recoveryPolicy cfg op
  let context ← takeoverContext session policy op
  let op ← closeSending op
  .require (¬(op.remoteTool ∈ nonIdempotentTools ∧ op.sendStarted = true))
    .manualReconciliationRequired
  if op.sendStarted = true then
    let rebound ← .atomic (transition op
      { state := .unknown
        renewedContext := some context
        renewedActionDigest := some
          (cfg.scheme.digest (.takeover op.actionDigest context policy.version)) })
    reconcile cfg pid session rebound
  else
    -- takeover alone never consumes a permission or sends a write
    renewConfirmation cfg session op context policy.version

def takeover : Call δ (WorkflowOperation δ) :=
  executionGuard pid do
    let current ← reloadCurrent op
    takeoverLocked cfg pid session current

/-! ## Callers -/

/-- The engine's `governed_confirmation`: `ensure_confirmation` under the guard. -/
def governedConfirmation : Call δ (Option (HumanGateRequest δ)) := do
  match ← byTask with
  | none => return none
  | some _ =>
    executionGuard pid do
      let current ← reload
      let ensured ← ensureConfirmation cfg session current
      return some ensured.2

/-- The engine's `rebind_governed_confirmation`, with the shortcut of
`current_login_generation`. -/
def rebindGovernedConfirmation (expectedActionDigest : δ) (expectedGateRequestId : String) :
    Call δ (Option (HumanGateRequest δ)) := do
  match ← byTask with
  | none => return none
  | some op =>
    if (∃ s ∈ session, s.fingerprint = op.context.loginSessionFingerprint) ∧
        op.gateRequestId = some expectedGateRequestId then
      return none
    else
      executionGuard pid do
        let current ← reload
        rebindCurrentSession cfg session current expectedActionDigest expectedGateRequestId

end

/-- A caller of `app/api/v1/mcp.py`: it loads the operation, and calls with what
it has loaded. -/
def withLoaded {α : Type} (operationId tenantId userId : String)
    (call : WorkflowOperation δ → Call δ α) : Call δ α := do
  let op ← load operationId tenantId userId
  let op ← orRaise .operationUnavailable op
  call op

def quiet {α : Type} (call : Call δ α) : Call δ Unit := do
  let _ ← call
  return ()

/-- The calls that process `pid` may make on the operation of the task. -/
inductive ServiceCall (cfg : Config δ) (pid : Nat) : Call δ Unit → Prop
  | start (session : Option Session) (definition : GovernedWorkflowDefinition)
      (sessionId aiUserId tenantId : String) (initialInput : Json) :
      ServiceCall cfg pid
        (quiet (start cfg session definition sessionId aiUserId tenantId initialInput))
  | ensureConfirmation (session : Option Session) (operationId tenantId userId : String) :
      ServiceCall cfg pid
        (quiet (withLoaded operationId tenantId userId (ensureConfirmation cfg session)))
  | governedConfirmation (session : Option Session) :
      ServiceCall cfg pid (quiet (governedConfirmation cfg pid session))
  | rebind (session : Option Session) (expectedActionDigest : δ)
      (expectedGateRequestId : String) :
      ServiceCall cfg pid (quiet (rebindGovernedConfirmation cfg pid session
        expectedActionDigest expectedGateRequestId))
  | resume (session : Option Session) (confirmed : Bool) (expectedActionDigest : Option δ) :
      ServiceCall cfg pid (quiet (resume cfg pid session confirmed expectedActionDigest))
  | recover (session : Option Session) (operationId tenantId userId : String) :
      ServiceCall cfg pid
        (quiet (withLoaded operationId tenantId userId (recover cfg pid session)))
  | reconcile (session : Option Session) (operationId tenantId userId : String) :
      ServiceCall cfg pid
        (quiet (withLoaded operationId tenantId userId (reconcile cfg pid session)))
  | takeover (session : Option Session) (operationId tenantId userId : String) :
      ServiceCall cfg pid
        (quiet (withLoaded operationId tenantId userId (takeover cfg pid session)))
  | discard (session : Option Session) : ServiceCall cfg pid (quiet (discard cfg pid session))
  | retire (session : Option Session) (expectedActionDigest : δ)
      (expectedGateRequestId : String) (reason : RetireReason) :
      ServiceCall cfg pid (quiet (retireOwnedConfirmation cfg pid session
        expectedActionDigest expectedGateRequestId reason))

/-- What happens without a call: the surroundings change, a human decides, and
other components create requests of their own. -/
inductive EnvStep (cfg : Config δ) : World δ → World δ → Prop
  | change (w : World δ) (e : Env δ) : EnvStep cfg w { w with env := e }
  | decide (w : World δ) (d : HumanGateDecisionRecord δ) : EnvStep cfg w (recordDecision d w)
  | request (w : World δ) (r : HumanGateRequest δ) : r.validate cfg →
      w.gateRow r.requestId = none → EnvStep cfg w { w with gate := ⟨r, none⟩ :: w.gate }

/-- Before the first call: no operation, no request, nobody holds the guard. -/
def Initially (w : World δ) : Prop := w.row = none ∧ w.gate = [] ∧ w.guard = none

/-- The interleavings of service calls on one task. A process that dies at any
point loses the guard and nothing else. -/
abbrev ServiceRun (cfg : Config δ) : List (World δ) → Procs (World δ) Failure → Prop :=
  PoolRun Initially (EnvStep cfg) (ServiceCall cfg) releaseGuard

end EternalAI.Mcp
