import EternalAI.Lib.Pool
import EternalAI.Mcp.Model

/-!
# Governed MCP operations — stores

`PostgreSQLWorkflowStore` and `PostgreSQLHumanGate` as transactions on a shared
`World`, for one task: at most one operation row belongs to it (`task_id` is
unique in `mcp_workflow_runs`).

* `encode`, `decode` — the columns, the checkpoint and the encrypted payload of
  an operation, and `_decode`, which checks them against each other.
* `updated`, `transition` — the new operation a transition computes, and its
  compare-and-set commit.
* `consume` — the one place that moves an operation into `sending`.
* The human gate: requests are immutable and decided at most once.

Everything the stores and their callers read from elsewhere (the clock, the
task row, connections, policies, what the gateway answers) is an `Env`, which
the environment may change between any two actions.
-/

namespace EternalAI.Mcp

open Lib

/-! ## Shared state -/

/-- A deadline as a policy reports it; a naive one has no time zone. -/
structure Deadline where
  instant : Int
  aware : Bool := true

structure Env (δ : Type) where
  /-- `datetime.now(UTC)`. -/
  now : Int
  /-- `get_task_binding`: the digest of the task's binding manifest. -/
  taskBinding : Option String
  /-- Tenant, user and chat session of the task row, if there is one. -/
  task : Option (String × String × String)
  /-- `McpStorePort.connection`. -/
  connection : (tenantId userId serviceConfigId : String) → Option Connection
  /-- `McpStorePort.mapping`. -/
  mapping : (capabilityId version : String) → Option ToolBinding
  /-- Whether `McpStorePort.resolve` finds a live grant. -/
  resolves : McpAuthorizationContext → Bool
  /-- Whether the policy guard asks for a confirmation. -/
  policyConfirms : Bool
  /-- `validate_input`. -/
  inputValid : String → Json → Bool
  /-- `_preview`. -/
  preview : List (String × Json)
  /-- `artifact_deadline` of the submit precondition and of the recovery policy. -/
  (submitDeadline recoveryDeadline : Option Deadline)
  /-- Whether a guard slot and the advisory lock are to be had. -/
  guardAvailable : Bool
  /-- How the gateway ends a call before the adapter asks for permission to send. -/
  gatewayStops : Option (Except Failure ExecutionResult)
  gatewayReply : (capabilityId : String) → (arguments : Json) → Except Failure ExecutionResult
  recoveryRead : (capabilityId : String) → (arguments : Json) → Except Failure (Option Json)
  /-- The recovery policy's decision. -/
  resolution : WorkflowOperation δ → Option Json → Except Failure (Resolution × Json)

structure World (δ : Type) where
  row : Option (OperationRow δ) := none
  gate : List (GateRow δ) := []
  /-- The process that holds the operation's execution guard. -/
  guard : Option Nat := none
  /-- How many ids `uuid4` has given out. -/
  drawn : Nat := 0
  env : Env δ

structure Config (δ : Type) where
  scheme : DigestScheme δ
  /-- The ids that `uuid4().hex` gives out, in order. -/
  uuid : Nat → String
  taskId : String
  manifests : String → Option GovernedWorkflowPolicy
  recoveryPolicies : (serviceConfigId tool : String) → Option (RecoveryPolicy δ)
  submitPreconditions : (serviceConfigId tool : String) → Option SubmitPrecondition

variable {δ : Type} [DecidableEq δ]

abbrev Call (δ α : Type) := Prog (World δ) Failure α

def now : Call δ Int := .read (·.env.now)

/-- Python's truth value of an optional string: the empty one counts as absent. -/
def truthy : Option String → Option String
  | some s => if s = "" then none else some s
  | none => none

/-! ## Rows -/

section

variable (op : WorkflowOperation δ)

def aad : Aad :=
  { operationId := op.operationId
    tenantId := op.context.tenantId
    userId := op.context.userId
    serviceConfigId := op.context.serviceConfigId }

def checkpointOf : Checkpoint :=
  { definition := op.outerCapabilityId
    version := op.outerVersion
    state := op.state
    revision := op.revision
    stepIndex := 0
    gateRequestId := op.gateRequestId }

/-- The rows `create` inserts for an operation. -/
def encode : OperationRow δ :=
  { operationId := op.operationId
    tenantId := op.context.tenantId
    userId := op.context.userId
    serviceConfigId := op.context.serviceConfigId
    taskId := op.context.taskId
    state := op.state
    revision := op.revision
    attemptId := op.attemptId
    sendStarted := op.sendStarted
    expiresAt := op.expiresAt
    encryptedPayload := ⟨aad op, op⟩
    checkpoint := checkpointOf op }

end

/-- The associated data that a row is decrypted with. -/
def OperationRow.aad (row : OperationRow δ) : Aad :=
  { operationId := row.operationId
    tenantId := row.tenantId
    userId := row.userId
    serviceConfigId := row.serviceConfigId }

/-- `_decode`: decrypt, validate, and compare the payload with the columns and
the checkpoint. -/
def decode (row : OperationRow δ) : Except Failure (WorkflowOperation δ) :=
  let op := row.encryptedPayload.payload
  if row.encryptedPayload.aad ≠ row.aad then
    .error .secretUnavailable
  else if ¬op.validate then
    .error .other
  else if (op.state, op.revision, op.sendStarted, op.attemptId, op.expiresAt) ≠
      (row.state, row.revision, row.sendStarted, row.attemptId, row.expiresAt) then
    .error .checkpointInconsistent
  else if row.checkpoint ≠ checkpointOf op then
    .error .checkpointInconsistent
  else
    .ok op

section

variable (op : WorkflowOperation δ)

/-- `create`: the task row must belong to the operation's owner, and the task
must not have an operation yet. -/
def create (w : World δ) : Except Failure (WorkflowOperation δ × World δ) :=
  if w.env.task ≠ some (op.context.tenantId, op.context.userId, op.context.chatSessionId) then
    .error .checkpointInconsistent
  else if w.row.isSome then
    .error .other
  else
    .ok (op, { w with row := some (encode op) })

/-- Decode the row of the task, if there is one that satisfies `p`. -/
def fetch (p : OperationRow δ → Bool) (w : World δ) :
    Except Failure (Option (WorkflowOperation δ)) :=
  match w.row with
  | none => .ok none
  | some row => if p row then (decode row).map some else .ok none

def load (operationId tenantId userId : String) : Call δ (Option (WorkflowOperation δ)) := do
  let r ← .read (fetch fun row =>
    row.operationId == operationId && row.tenantId == tenantId && row.userId == userId)
  .ofExcept r

/-- `by_task`, for the task of the model. -/
def byTask : Call δ (Option (WorkflowOperation δ)) := do
  let r ← .read (fetch fun _ => true)
  .ofExcept r

/-! ## Transitions -/

/-- The keyword arguments of `transition`. -/
structure TransitionArgs (δ : Type) where
  state : OperationState
  gateRequestId : Option String := none
  attemptId : Option String := none
  safeOutput : Option Json := none
  publicResult : Option Json := none
  reviewUrl : Option String := none
  renewedContext : Option McpAuthorizationContext := none
  renewedActionDigest : Option δ := none
  renewedGateExpiresAt : Option Int := none
  confirmationErrorCode : Option String := none

variable (args : TransitionArgs δ)

def allowed : OperationState → List OperationState
  | .waitingLocalConfirm => [.ready, .cancelled, .expired, .waitingLocalConfirm]
  | .ready => [.sending, .cancelled, .expired, .waitingLocalConfirm]
  | .sending => [.unknown, .verifiedSuccess, .failed, .waitingExternalConfirm]
  | .waitingExternalConfirm =>
    [.unknown, .verifiedSuccess, .expired, .waitingLocalConfirm, .failed]
  | .unknown => [.verifiedSuccess, .failed, .waitingLocalConfirm, .unknown]
  | .expired => [.waitingLocalConfirm]
  | .verifiedSuccess | .failed | .cancelled => []

/-- The context fields that a renewal may not change agree. -/
def sameBinding (a b : McpAuthorizationContext) : Bool :=
  a.tenantId == b.tenantId && a.userId == b.userId &&
  a.serviceConfigId == b.serviceConfigId &&
  a.serviceConfigVersion == b.serviceConfigVersion &&
  a.connectionId == b.connectionId && a.registrationId == b.registrationId &&
  a.taskId == b.taskId && a.chatSessionId == b.chatSessionId &&
  a.capabilityId == b.capabilityId && a.capabilityVersion == b.capabilityVersion &&
  a.operationId == b.operationId && a.targetSystem == b.targetSystem

/-- Whether `transition` accepts its arguments. -/
def acceptable : Bool :=
  -- a presend failure code goes with a failure before any send
  (args.confirmationErrorCode.isNone ||
    (args.state == .failed && (op.state == .waitingLocalConfirm || op.state == .ready) &&
      !op.sendStarted)) &&
  ((allowed op.state).contains args.state ||
    (args.state == .failed && args.confirmationErrorCode.isSome)) &&
  if args.renewedActionDigest.isSome then
    (args.state == .waitingLocalConfirm || args.state == .unknown) &&
    decide (op.previousAttempts.length < 10) &&
    sameBinding (args.renewedContext.getD op.context) op.context
  else
    args.renewedContext.isNone && args.renewedGateExpiresAt.isNone

/-- The operation after a transition that is no renewal. -/
def advanced : WorkflowOperation δ :=
  let attemptId := (truthy args.attemptId).or op.attemptId
  { op with
    state := args.state
    revision := op.revision + 1
    gateRequestId := (truthy args.gateRequestId).or op.gateRequestId
    attemptId := attemptId
    sendStarted := op.sendStarted || args.state == .sending
    safeOutput := args.safeOutput.getD op.safeOutput
    publicResult := if args.state = .verifiedSuccess then args.publicResult else none
    confirmationErrorCode := args.confirmationErrorCode
    reviewUrl := args.reviewUrl.or op.reviewUrl
    context := { op.context with workflowAuthorizationRef := attemptId } }

/-- The operation after a renewal under `actionDigest`. -/
def renewed (actionDigest : δ) : WorkflowOperation δ :=
  { advanced op args with
    context := { args.renewedContext.getD op.context with workflowAuthorizationRef := none }
    actionDigest := actionDigest
    expiresAt := args.renewedGateExpiresAt.getD op.expiresAt
    gateRequestId := args.gateRequestId
    attemptId := if args.state = .waitingLocalConfirm then none else op.attemptId
    sendStarted := if args.state = .waitingLocalConfirm then false else op.sendStarted
    reviewUrl := none
    previousAttempts := op.previousAttempts ++
      if args.state = .waitingLocalConfirm then (truthy op.attemptId).toList else [] }

def succeeding : WorkflowOperation δ :=
  match args.renewedActionDigest with
  | some actionDigest => renewed op args actionDigest
  | none => advanced op args

def updated : Except Failure (WorkflowOperation δ) :=
  if acceptable op args = false then
    .error .operationTransitionInvalid
  else if (succeeding op args).validate = false then
    .error .other
  else
    .ok (succeeding op args)

/-- The row matches the `WHERE` clause of the compare-and-set. -/
def OperationRow.matches (row : OperationRow δ) (op : WorkflowOperation δ) : Bool :=
  row.operationId == op.operationId && row.tenantId == op.context.tenantId &&
  row.userId == op.context.userId && row.serviceConfigId == op.context.serviceConfigId &&
  row.revision == op.revision && row.state == op.state

/-- The row after the compare-and-set: the keys stay, the payload is sealed
under the associated data of the operation the caller had. -/
def OperationRow.overwrite (row : OperationRow δ) (op new : WorkflowOperation δ) :
    OperationRow δ :=
  { row with
    state := new.state
    revision := new.revision
    attemptId := new.attemptId
    sendStarted := new.sendStarted
    expiresAt := new.expiresAt
    encryptedPayload := ⟨Mcp.aad op, new⟩
    checkpoint := { checkpointOf new with
      definition := op.outerCapabilityId
      version := op.outerVersion } }

/-- `transition`: compute the new operation, then compare and set. -/
def transition (w : World δ) : Except Failure (WorkflowOperation δ × World δ) := do
  let new ← updated op args
  match w.row with
  | none => .error .operationConflict
  | some row =>
    if row.matches op then
      .ok (new, { w with row := some (row.overwrite op new) })
    else
      .error .operationConflict

end

/-! ## Execution guard -/

/-- Take the execution guard, or fail at once. -/
def acquireGuard (pid : Nat) (w : World δ) : Except Failure (Unit × World δ) :=
  if w.guard = none ∧ w.env.guardAvailable then
    .ok ((), { w with guard := some pid })
  else
    .error .operationBusy

/-- Give the guard back, if `pid` holds it. -/
def releaseGuard (pid : Nat) (w : World δ) : World δ :=
  if w.guard = some pid then { w with guard := none } else w

/-- `execution_guard`: `body` runs as the holder of the guard. -/
def executionGuard {α : Type} (pid : Nat) (body : Call δ α) : Call δ α := do
  .atomic (acquireGuard pid)
  body.andFinally (.atomic fun w => .ok ((), releaseGuard pid w))

/-! ## Human gate -/

def World.gateRow (w : World δ) (requestId : String) : Option (GateRow δ) :=
  w.gate.find? fun row => row.request.requestId == requestId

def isSha256Hex (s : String) : Bool :=
  s.length == 64 && s.toList.all fun c => c.isDigit || ('a' ≤ c && c ≤ 'f')

/-- The field and model validators of `HumanGateRequest`. -/
def HumanGateRequest.validate (cfg : Config δ) (r : HumanGateRequest δ) : Bool :=
  r.requestId != "" && r.taskId != "" && r.requestedForAiUserId != "" &&
  r.requestedSessionId != "" && r.requestedTenantId != "" &&
  cfg.scheme.hex64 r.actionDigest && cfg.scheme.hex64 r.requestDigest &&
  isSha256Hex r.bindingManifestDigest && decide (r.requestedAt < r.expiresAt)

def getRequest (requestId : String) : Call δ (Option (HumanGateRequest δ)) :=
  .read fun w => (w.gateRow requestId).map (·.request)

def getDecision (requestId : String) : Call δ (Option (HumanGateDecisionRecord δ)) :=
  .read fun w => (w.gateRow requestId).bind (·.decision)

def getTaskBinding : Call δ (Option String) := .read (·.env.taskBinding)

/-- The insert of `create_request`: nothing happens if the id is taken or the
task row is not the requested subject's; says whether a row was inserted. -/
def insertRequest (r : HumanGateRequest δ) (w : World δ) : Except Failure (Bool × World δ) :=
  if (w.gateRow r.requestId).isNone ∧
      (w.env.task.map fun (_, user, chat) => (user, chat)) =
        some (r.requestedForAiUserId, r.requestedSessionId) then
    .ok (true, { w with gate := ⟨r, none⟩ :: w.gate })
  else
    .ok (false, w)

def createRequest (r : HumanGateRequest δ) : Call δ (HumanGateRequest δ) := do
  let binding ← getTaskBinding
  .require (binding = some r.bindingManifestDigest) .gateConflict
  if ← .atomic (insertRequest r) then
    return r
  else
    let existing ← getRequest r.requestId
    .require (existing = some r) .gateConflict
    return r

section

variable (row : GateRow δ) (d : HumanGateDecisionRecord δ)

/-- The update of `record_decision` applies to a row. -/
def GateRow.accepts : Prop :=
  row.request.requestId = d.requestId ∧ row.request.taskId = d.taskId ∧
  row.request.requestedForAiUserId = d.decidedByAiUserId ∧
  row.request.requestedSessionId = d.decidedSessionId ∧
  row.request.requestedTenantId = d.decidedTenantId ∧
  row.request.requestDigest = d.requestDigest ∧
  row.request.bindingManifestDigest = d.bindingManifestDigest ∧
  row.request.requestedAt ≤ d.decidedAt ∧ d.decidedAt ≤ row.request.expiresAt ∧
  row.decision = none

instance : Decidable (row.accepts d) :=
  inferInstanceAs (Decidable (_ ∧ _))

/-- The update of `record_decision`. -/
def recordDecision (w : World δ) : World δ :=
  { w with gate := w.gate.map fun row =>
      if row.accepts d then { row with decision := some d } else row }

/-- `confirmation`: the request of the operation's current action; two of them
are ambiguous. -/
def confirmation (op : WorkflowOperation δ) : Call δ (Option (HumanGateRequest δ)) := do
  let rows ← .read fun w => (w.gate.map (·.request)).filter fun r =>
    r.taskId == op.context.taskId && r.actionDigest == op.actionDigest &&
    r.requestedForAiUserId == op.context.userId &&
    r.requestedSessionId == op.context.chatSessionId &&
    r.requestedTenantId == op.context.tenantId &&
    (op.gateRequestId.isNone || op.gateRequestId == some r.requestId)
  .require (rows.length ≤ 1) .confirmationAmbiguous
  return rows.head?

/-- The `SELECT` of `consume`: the operation's own request, for its current
action, confirmed and not expired. -/
def GateRow.authorises (op : WorkflowOperation δ) (context : McpAuthorizationContext) (now : Int) :
    Bool :=
  op.gateRequestId == some row.request.requestId &&
  row.request.taskId == context.taskId &&
  row.request.requestedForAiUserId == context.userId &&
  row.request.requestedTenantId == context.tenantId &&
  row.request.requestedSessionId == context.chatSessionId &&
  row.request.actionDigest == op.actionDigest &&
  row.decision.any (fun d => d.decision == .confirmed) &&
  decide (now < row.request.expiresAt)

end

/-- `consume`: spend the permission of the authorization's attempt. -/
def consume (cfg : Config δ) (pid : Nat) (authorization : GovernedWorkflowAuthorization)
    (context : McpAuthorizationContext) (capabilityId : String) (arguments : Json) :
    Call δ (WorkflowOperation δ) := do
  let op? ← load authorization.operationId context.tenantId context.userId
  match op? with
  | none => .raise .workflowAuthorizationInvalid
  | some op =>
    let holder ← .read (·.guard)
    let expiryNow ← now
    let artifactNow ← now
    .require (holder = some pid ∧ op.state = .ready ∧
      op.revision = authorization.expectedRevision ∧
      op.attemptId = some authorization.attemptId ∧
      op.leafCapabilityId = capabilityId ∧ op.context = context ∧
      cfg.scheme.digest (.arguments arguments) = op.canonicalArgsDigest ∧
      expiryNow < op.expiresAt ∧ (∀ d ∈ op.artifactExpiresAt, artifactNow < d))
      .workflowAuthorizationInvalid
    let confirmed ← .read fun w => w.gate.any (·.authorises op context w.env.now)
    .require (confirmed = true) .workflowAuthorizationInvalid
    .atomic (transition op { state := .sending })

end EternalAI.Mcp
