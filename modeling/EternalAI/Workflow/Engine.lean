import EternalAI.Lib.Guarded
import EternalAI.Workflow.Model

/-!
# The workflow engine

`WorkflowEngine.execute` and `WorkflowEngine.resume` of
`app/workflow/engine.py` for one task, as programs over what the engine shares
with its collaborators. Every call of a collaborator is an action of its own,
so other calls for the same task and changes of the collaborators may come in
between; every collaborator may raise.

* The capability registry, the capability gateway, the trace sink, the task
  store and the human gate are in `Env`: what each of them would answer now.
* `World.checkpoint` is the engine's entry of `_checkpoints` for the task, held
  in memory and never read back from the task store.
* `World.calls` records the gateway calls, newest first, with the reply.

Operations that are admitted to the governed path do not come here; they are
the subject of `Mcp/`.
-/

namespace EternalAI.Workflow

open Lib

variable {V : Type}

/-! ## Collaborators and state -/

inductive CapabilityType where
  | query | action | workflow | mock
  deriving DecidableEq, Repr

inductive CapabilityRiskLevel where
  | low | medium | high
  deriving DecidableEq, Repr

inductive CapabilityStatus where
  | draft | active | disabled | deprecated
  deriving DecidableEq, Repr

structure CapabilitySpec where
  capabilityId : String
  type : CapabilityType
  riskLevel : CapabilityRiskLevel
  version : String
  status : CapabilityStatus
  deriving DecidableEq, Repr

/-- Who asks: the identity and the request that go with every gateway call. -/
structure Request where
  (taskId sessionId aiUserId tenantId requestId : String)
  deriving DecidableEq, Repr

/-- The collaborators at one moment: the answer each of them would give. -/
structure Env (V : Type) where
  registry : String → Except Exn (Option CapabilitySpec)
  /-- By request, confirmation barrier, capability and arguments. -/
  gateway : Request → Bool → String → Dict V → Except Exn (ExecutionResult V)
  (recordStep appendEvent assertTaskBindings : Except Exn Unit)

/-- `_WorkflowCheckpoint`. -/
structure Checkpoint (V : Type) where
  definition : Definition V
  waitingStepIndex : Nat
  request : Request
  initialInput : Dict V
  stepOutputs : Dict (Dict V)
  confirmationBarrier : Bool

def Checkpoint.remaining (checkpoint : Checkpoint V) : List (Step V) :=
  checkpoint.definition.steps.drop checkpoint.waitingStepIndex

/-- A gateway call: which engine call made it, for which step, whether as the
confirmed capability of a step that had waited, and what came back. -/
structure GatewayCall (V : Type) where
  (caller stepIndex : Nat)
  confirmed : Bool
  capabilityId : String
  arguments : Dict V
  reply : Except Exn (ExecutionResult V)

structure World (V : Type) where
  env : Env V
  checkpoint : Option (Checkpoint V)
  calls : List (GatewayCall V)
  events : List Event

structure Config (V : Type) where
  definitions : String → Option (Definition V)
  /-- Python's `==` on JSON values. -/
  equal : V → V → Bool
  /-- `workflow_confirmation_action_digest`. -/
  digest : PendingAction V → String
  /-- `canonical_object`, unless it raises. -/
  canonicalObject : Option (Dict V) → Option String
  /-- The checks of the constructor of `StepObservation`. -/
  observable : StepObservation → Bool
  humanGate : Bool

abbrev Call (V α : Type) := Prog (World V) Exn α

/-! ## Calls of the collaborators -/

def ask {α : Type} (answer : Env V → Except Exn α) : Call V α := do
  let reply ← Prog.read fun w => answer w.env
  Prog.ofExcept reply

def registryGet (capabilityId : String) : Call V (Option CapabilitySpec) :=
  ask fun env => env.registry capabilityId

def recordStep : Call V Unit := ask Env.recordStep

def assertTaskBindings : Call V Unit := ask Env.assertTaskBindings

def appendState (event : Event) : Call V Unit :=
  Prog.atomic fun w => w.env.appendEvent.map fun _ => ((), { w with events := event :: w.events })

/-- `self._checkpoints[task_id] = checkpoint`. -/
def setCheckpoint (checkpoint : Checkpoint V) : Call V Unit :=
  .act (fun w => { w with checkpoint := some checkpoint }) fun _ => .ret ()

/-- `self._checkpoints.pop(task_id, None)`. -/
def popCheckpoint : Call V Unit :=
  .act (fun w => { w with checkpoint := none }) fun _ => .ret ()

/-! ## Validation against the registry -/

def CapabilitySpec.usable (capability : CapabilitySpec) : Bool :=
  capability.status == .active && capability.riskLevel == .low && capability.type != .workflow

def validateConfirmedCapability (step : Step V) : Call V Unit :=
  match step.confirmedCapabilityId with
  | none => .raise (.valueError
      "confirmed Workflow capability must differ from the waiting capability")
  | some capabilityId => do
    Prog.require (capabilityId ≠ step.capabilityId) (.valueError
      "confirmed Workflow capability must differ from the waiting capability")
    let capability ← registryGet capabilityId
    Prog.require (capability.any CapabilitySpec.usable) (.valueError
      "confirmed Workflow capability must be active, low-risk, registered, and non-workflow")

def validateConfirmedIfDeclared (step : Step V) : Call V Unit :=
  if step.confirmedCapabilityId.isSome then validateConfirmedCapability step else .ret ()

/-- The registry checks of `_validate_steps`. -/
def validateStepCapabilities : List (Step V) → Call V Unit
  | [] => .ret ()
  | step :: rest => do
    let capability ← registryGet step.capabilityId
    Prog.require (capability.any CapabilitySpec.usable) (.valueError
      "each Workflow step must reference an active low-risk registered capability")
    validateConfirmedIfDeclared step
    validateStepCapabilities rest

section

variable (definition : Definition V)

def validateSteps : Call V Unit := do
  Prog.ofExcept (validateStructure definition)
  validateStepCapabilities definition.steps

def validateWorkflowCapability (capability : CapabilitySpec) (definition : Definition V) :
    Call V Unit :=
  Prog.require (capability.status = .active ∧ capability.type = .workflow ∧
      capability.capabilityId = definition.workflowId ∧ capability.version = definition.version)
    (.versionBindingMismatch "Registered Workflow binding is unavailable")

/-- Every capability a definition names is registered and no workflow. -/
def bindCapabilities : List String → Call V Unit
  | [] => .ret ()
  | capabilityId :: rest => do
    let capability ← registryGet capabilityId
    Prog.require (capability.any fun c => c.type != .workflow)
      (.versionBindingMismatch "Bound Workflow capability is unavailable")
    bindCapabilities rest

def Definition.capabilityIds : List String :=
  definition.steps.flatMap fun step => step.capabilityId :: step.confirmedCapabilityId.toList

/-- A `ValueError` as the mismatch it is reported as. -/
def asMismatch (message : String) : Exn → Exn
  | .valueError _ => .versionBindingMismatch message
  | .versionBindingMismatch _ => .versionBindingMismatch message
  | .other text => .other text

/-- The given capability, or else the registered one. -/
def workflowCapabilityOr (capability : Option CapabilitySpec) (definition : Definition V) :
    Call V (Option CapabilitySpec) :=
  match capability with
  | some capability => .ret (some capability)
  | none => registryGet definition.workflowId

/-- The step validation, with a `ValueError` reported as a mismatch. -/
def validateBoundSteps : Call V Unit := do
  let validated ← (validateSteps definition).attempt
  Prog.ofExcept (validated.mapError (asMismatch "Bound Workflow capability is unavailable"))

/-- `_definition_version_bindings`, up to the bindings themselves, which only
the human gate looks at. -/
def definitionVersionBindings (workflowCapability : Option CapabilitySpec) : Call V Unit := do
  validateBoundSteps definition
  let found ← workflowCapabilityOr workflowCapability definition
  match found with
  | none => .raise (.versionBindingMismatch "Registered Workflow binding is unavailable")
  | some capability => do
    validateWorkflowCapability capability definition
    bindCapabilities definition.capabilityIds

end

/-! ## One pass over the steps -/

/-- What stays fixed during one pass of `_run_steps`. -/
structure Pass (V : Type) where
  caller : Nat
  definition : Definition V
  confirmedStepIndex : Option Nat
  request : Request
  initialInput : Dict V
  confirmationBarrier : Bool

structure Progress (V : Type) where
  stepOutputs : Dict (Dict V)
  finalOutput : Dict V
  observations : List StepObservation

def requiredPostconditionRule (workflowId : String) : Bool := workflowId == "oa.read_overview"

namespace Pass

variable (cfg : Config V) (pass : Pass V)

def result (status : RunStatus) (output : Output V) (progress : Progress V)
    (errorCode : Option ErrorCode) (observations : List StepObservation) : RunResult V :=
  { workflowId := pass.definition.workflowId
    workflowVersion := pass.definition.version
    traceId := pass.request.requestId
    status := status
    output := output
    stepOutputs := progress.stepOutputs
    errorCode := errorCode
    evaluationObservations := observations }

section

variable (step : Step V) (index : Nat) (capabilityId : String) (execution : ExecutionResult V)

/-- The capability a step calls: its confirmed one if the step is resumed. -/
def capabilityFor : Except Exn String :=
  if pass.confirmedStepIndex = some index then
    match step.confirmedCapabilityId with
    | none => .error (.valueError "waiting Workflow step has no confirmed capability")
    | some capabilityId => .ok capabilityId
  else .ok step.capabilityId

/-- With a human gate, the bindings of the capability are asserted right before
every gateway call. -/
def checkBinding : Call V Unit :=
  if cfg.humanGate then do
    let capability ← registryGet capabilityId
    Prog.require (capability.any fun c => c.type != .workflow)
      (.versionBindingMismatch "Bound Workflow capability is unavailable")
    assertTaskBindings
  else .ret ()

/-- The gateway call of a step at one moment. The confirmed capability is called
without the confirmation barrier. -/
def gatewayCall (arguments : Dict V) (w : World V) : GatewayCall V :=
  let confirmed := decide (pass.confirmedStepIndex = some index)
  { caller := pass.caller
    stepIndex := index
    confirmed := confirmed
    capabilityId := capabilityId
    arguments := arguments
    reply := w.env.gateway pass.request (pass.confirmationBarrier && !confirmed) capabilityId
      arguments }

/-- Calling the gateway. The call is on record even if the gateway raises. -/
def executeCapability (arguments : Dict V) : Call V (ExecutionResult V) :=
  .act (fun w => { w with calls := pass.gatewayCall index capabilityId arguments w :: w.calls })
    fun w => Prog.ofExcept (pass.gatewayCall index capabilityId arguments w).reply

def attemptStep (arguments : Dict V) : Call V (ExecutionResult V) := do
  checkBinding cfg capabilityId
  recordStep
  pass.executeCapability index capabilityId arguments

/-- The attempts of a step: again after a retryable failure, as long as there
are retries left. Returns the last execution and the number of the attempt. -/
def attempts (index : Nat) (capabilityId : String) (arguments : Dict V) :
    (retries attempt : Nat) → Call V (ExecutionResult V × Nat)
  | 0, attempt => do
    let execution ← pass.attemptStep cfg index capabilityId arguments
    return (execution, attempt)
  | retries + 1, attempt => do
    let execution ← pass.attemptStep cfg index capabilityId arguments
    if execution.retryable then attempts index capabilityId arguments retries (attempt + 1)
    else return (execution, attempt)

/-- A step whose capability asks for the user: the run stops, and what is needed
to go on is kept in memory. -/
def wait (attempt : Nat) (progress : Progress V) : Call V (RunResult V) := do
  Prog.require (pass.confirmedStepIndex ≠ some index)
    (.other "confirmed Workflow capability requested confirmation again")
  Prog.require (step.confirmedCapabilityId.isSome)
    (.valueError "waiting Workflow step must declare a confirmed capability")
  appendState (.stepFinished step.stepId index .waitingConfirm (some attempt) execution.errorCode)
  appendState (.workflowWaitingConfirm
    (checkpointState pass.definition step index pass.initialInput progress.stepOutputs))
  setCheckpoint
    { definition := pass.definition
      waitingStepIndex := index
      request := pass.request
      initialInput := pass.initialInput
      stepOutputs := progress.stepOutputs
      confirmationBarrier := pass.confirmationBarrier }
  return pass.result .waitingConfirm (.last []) progress execution.errorCode []

def deny (attempt : Nat) (progress : Progress V) : Call V (RunResult V) := do
  appendState (.stepFinished step.stepId index .denied (some attempt) execution.errorCode)
  appendState (.workflowCompleted .denied)
  return pass.result .denied (.last []) progress execution.errorCode []

def fail (attempt : Nat) (progress : Progress V) : Call V (RunResult V) := do
  let timedOut := execution.status == .timeout
  let status : RunStatus := if timedOut then .timeout else .failed
  appendState (.stepFinished step.stepId index (if timedOut then .timeout else .failed)
    (some attempt) execution.errorCode)
  appendState (.workflowFailed status execution.errorCode)
  return pass.result status (.last []) progress execution.errorCode []

/-- The evidence of a completed step, for the workflows that need it. Evidence
that cannot be built is left out. -/
def observe (attempt : Nat) (data : Option (Dict V)) : List StepObservation :=
  if requiredPostconditionRule pass.definition.workflowId then
    ((cfg.canonicalObject data).map fun payload =>
      { workflowId := pass.definition.workflowId
        workflowVersion := pass.definition.version
        stepId := step.stepId
        capabilityId := capabilityId
        attempt := attempt
        payloadJson := payload : StepObservation }).toList.filter cfg.observable
  else []

def advance (attempt : Nat) (progress : Progress V) : Progress V :=
  let output := execution.data.getD []
  { stepOutputs := progress.stepOutputs.set step.stepId output
    finalOutput := output
    observations := progress.observations ++
      pass.observe cfg step capabilityId attempt execution.data }

/-- A step that has been executed: the pass goes on with `next` if the step
completed, and ends otherwise. -/
def settleStep (attempt : Nat) (progress : Progress V) (next : Progress V → Call V (RunResult V)) :
    Call V (RunResult V) :=
  match execution.status with
  | .waitingUser => pass.wait step index execution attempt progress
  | .denied => pass.deny step index execution attempt progress
  | .completed => do
    appendState (.stepFinished step.stepId index .completed (some attempt) none)
    next (pass.advance cfg step capabilityId execution attempt progress)
  | _ => pass.fail step index execution attempt progress

end

def skipStep (step : Step V) (index : Nat) : Call V Unit := do
  recordStep
  appendState (.stepFinished step.stepId index .skipped none none)

def complete (progress : Progress V) : Call V (RunResult V) := do
  let output ← Prog.ofExcept
    (pass.definition.output progress.stepOutputs progress.finalOutput)
  appendState (.workflowCompleted .completed)
  return pass.result .completed output progress none progress.observations

/-- `_run_steps` from the step `index` on, the given steps being those that
remain. -/
def runSteps : List (Step V) → Nat → Progress V → Call V (RunResult V)
  | [], _, progress => pass.complete progress
  | step :: rest, index, progress => do
    let selected ← Prog.ofExcept
      (step.selected cfg.equal pass.initialInput progress.stepOutputs)
    if selected then
      let arguments ← Prog.ofExcept (step.arguments pass.initialInput progress.stepOutputs)
      let capabilityId ← Prog.ofExcept (pass.capabilityFor step index)
      let executed ← pass.attempts cfg index capabilityId arguments maxStepRetries 1
      pass.settleStep cfg step index capabilityId executed.1 executed.2 progress
        (runSteps rest (index + 1))
    else
      skipStep step index
      runSteps rest (index + 1) progress

end Pass

/-- `_run_steps` starts with nothing gathered but the outputs it is given. -/
def Progress.initial (stepOutputs : Dict (Dict V)) : Progress V :=
  { stepOutputs := stepOutputs, finalOutput := [], observations := [] }

/-! ## Executing and resuming -/

/-- What `execute` is called with. -/
structure ExecuteArgs (V : Type) where
  (workflowId expectedVersion : String)
  workflowCapability : CapabilitySpec
  request : Request
  initialInput : Dict V
  confirmationBarrier : Bool

section

variable (cfg : Config V)

def snapshotDefinition (workflowId expectedVersion : String) : Except Exn (Definition V) :=
  match cfg.definitions workflowId with
  | none => .error (.valueError "registered Workflow version is unavailable")
  | some definition =>
    if definition.version = expectedVersion then .ok definition
    else .error (.valueError "registered Workflow version is unavailable")

/-- The checks before a first step: against the registry, and with a human gate
also against the bindings of the task. -/
def checkAdmission (definition : Definition V) (capability : CapabilitySpec) : Call V Unit :=
  if cfg.humanGate then do
    definitionVersionBindings definition (some capability)
    assertTaskBindings
  else validateSteps definition

/-- How `execute` ends: with a human gate, a `ValueError` is reported as a
mismatch. -/
def executeEnded : Except Exn (RunResult V) → Call V (RunResult V)
  | .ok result => .ret result
  | .error (.valueError message) =>
    if cfg.humanGate then do
      appendState (.workflowFailed .failed (some .internalError))
      .raise (.versionBindingMismatch "Bound Workflow capability is unavailable")
    else .raise (.valueError message)
  | .error (.versionBindingMismatch message) => do
    appendState (.workflowFailed .failed (some .internalError))
    .raise (.versionBindingMismatch message)
  | .error (.other message) => .raise (.other message)

/-- `execute`, with `steps` for the pass over the steps. -/
def executeWith (args : ExecuteArgs V) (steps : Definition V → Call V (RunResult V)) :
    Call V (RunResult V) := do
  let definition ← Prog.ofExcept (snapshotDefinition cfg args.workflowId args.expectedVersion)
  validateWorkflowCapability args.workflowCapability definition
  checkAdmission cfg definition args.workflowCapability
  appendState (.workflowStarted definition.workflowId definition.version)
  let outcome ← (steps definition).attempt
  executeEnded cfg outcome

def ExecuteArgs.pass (args : ExecuteArgs V) (caller : Nat) (definition : Definition V) : Pass V :=
  { caller := caller
    definition := definition
    confirmedStepIndex := none
    request := args.request
    initialInput := args.initialInput
    confirmationBarrier := args.confirmationBarrier }

def execute (caller : Nat) (args : ExecuteArgs V) : Call V (RunResult V) :=
  executeWith cfg args fun definition =>
    (args.pass caller definition).runSteps cfg definition.steps 0 (.initial [])

def Checkpoint.pass (checkpoint : Checkpoint V) (caller : Nat) : Pass V :=
  { caller := caller
    definition := checkpoint.definition
    confirmedStepIndex := some checkpoint.waitingStepIndex
    request := checkpoint.request
    initialInput := checkpoint.initialInput
    confirmationBarrier := checkpoint.confirmationBarrier }

def Checkpoint.pendingAction (checkpoint : Checkpoint V) : Except Exn (PendingAction V) :=
  match checkpoint.remaining with
  | [] => .error (.other "tuple index out of range")
  | step :: _ =>
    match step.confirmedCapabilityId with
    | none => .error (.versionBindingMismatch
        "Waiting Workflow action has no confirmed capability")
    | some confirmedCapabilityId => do
      let arguments ← step.arguments checkpoint.initialInput checkpoint.stepOutputs
      return {
        workflowId := checkpoint.definition.workflowId
        workflowVersion := checkpoint.definition.version
        stepId := step.stepId
        stepIndex := checkpoint.waitingStepIndex
        waitingCapabilityId := step.capabilityId
        confirmedCapabilityId := confirmedCapabilityId
        arguments := arguments }

def pendingActionDigest (checkpoint : Option (Checkpoint V)) : Except Exn String :=
  match checkpoint with
  | none => .error (.versionBindingMismatch "No waiting Workflow action is available")
  | some checkpoint => checkpoint.pendingAction.map cfg.digest

def pendingConfirmationActionDigest : Call V String := do
  let checkpoint ← Prog.read World.checkpoint
  Prog.ofExcept (pendingActionDigest cfg checkpoint)

/-- A confirmation may name the action it was given for. -/
def checkExpectedDigest : Option String → Call V Unit
  | none => .ret ()
  | some expected => do
    let pending ← pendingConfirmationActionDigest cfg
    Prog.require (expected = pending)
      (.versionBindingMismatch "Pending Workflow action changed after preview")

def checkResumeBindings (definition : Definition V) : Call V Unit :=
  if cfg.humanGate then do
    definitionVersionBindings definition none
    assertTaskBindings
  else .ret ()

/-- The body of `resume` under its handler. -/
def resumePass (caller : Nat) (expected : Option String) (checkpoint : Checkpoint V) :
    Call V (RunResult V) := do
  checkExpectedDigest cfg expected
  checkResumeBindings cfg checkpoint.definition
  match checkpoint.remaining with
  | [] => .raise (.other "tuple index out of range")
  | waitingStep :: later => do
    validateConfirmedCapability waitingStep
    appendState (.workflowResumed checkpoint.definition.workflowId checkpoint.definition.version
      waitingStep.stepId checkpoint.waitingStepIndex waitingStep.confirmedCapabilityId)
    (checkpoint.pass caller).runSteps cfg (waitingStep :: later) checkpoint.waitingStepIndex
      (.initial checkpoint.stepOutputs)

/-- The checkpoint goes, and the failure is reported as a mismatch. -/
def dropCheckpoint (message : String) : Call V (RunResult V) := do
  popCheckpoint
  appendState (.workflowFailed .failed (some .internalError))
  .raise (.versionBindingMismatch message)

/-- How `resume` ends: a plain `ValueError` is passed on with the checkpoint
still there if there is neither a human gate nor an expected digest; another
`ValueError` drops the checkpoint; any other exception is not handled at all. -/
def resumeEnded (expected : Option String) : Except Exn (RunResult V) → Call V (RunResult V)
  | .ok result =>
    if result.status = .waitingConfirm then .ret result
    else do
      popCheckpoint
      return result
  | .error (.valueError message) =>
    if cfg.humanGate || expected.isSome then
      dropCheckpoint "confirmed Workflow capability or action binding is unavailable"
    else .raise (.valueError message)
  | .error (.versionBindingMismatch message) => dropCheckpoint message
  | .error (.other message) => .raise (.other message)

def resume (caller : Nat) (confirmed : Bool) (expected : Option String) : Call V (RunResult V) := do
  Prog.require (confirmed = true) (.valueError "explicit Workflow confirmation is required")
  let checkpoint ← Prog.read World.checkpoint
  match checkpoint with
  | none => .raise (.valueError "no waiting Workflow checkpoint exists for task")
  | some checkpoint => do
    let outcome ← (resumePass cfg caller expected checkpoint).attempt
    resumeEnded cfg expected outcome

end

def discardCheckpoint : Call V Unit := popCheckpoint

/-! ## Runs -/

def EnvStep (w w' : World V) : Prop := ∃ env, w' = { w with env := env }

/-- A call of the engine by its number, with the result thrown away. -/
inductive EngineCall (cfg : Config V) (caller : Nat) : Call V Unit → Prop
  | execute (args : ExecuteArgs V) :
      EngineCall cfg caller (execute cfg caller args >>= fun _ => .ret ())
  | resume (confirmed : Bool) (expected : Option String) :
      EngineCall cfg caller (resume cfg caller confirmed expected >>= fun _ => .ret ())
  | discard : EngineCall cfg caller discardCheckpoint

/-- Any interleaving of engine calls for one task. A call that is cancelled
leaves the state as it is. -/
abbrev EngineRun (cfg : Config V) (init : World V → Prop) :=
  PoolRun init EnvStep (EngineCall cfg) fun _ w => w

end EternalAI.Workflow
