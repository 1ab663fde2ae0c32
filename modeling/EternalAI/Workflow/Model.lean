import EternalAI.Lib.Prog

/-!
# Linear workflows — definitions, values and results

The data of `app/workflow/models.py` and the parts of
`app/workflow/engine.py` that need no collaborator: what a definition must look
like (`validateStructure`), where a step takes its arguments from
(`resolveValue`), and what a run returns.

JSON values are an arbitrary type `V`. Python's `==` on them identifies more
than equal documents (`1 == 1.0 == True`), so it is a parameter and not
equality. `deepcopy` has no counterpart: values here cannot be changed in place.
-/

namespace EternalAI.Workflow

open Lib

variable {V : Type}

/-! ## Dictionaries -/

/-- A `dict`: its items in insertion order. -/
abbrev Dict (α : Type) := List (String × α)

namespace Dict

variable {α : Type}

def get? (d : Dict α) (key : String) : Option α := d.lookup key

def contains (d : Dict α) (key : String) : Bool := (d.get? key).isSome

def keys (d : Dict α) : List String := d.map Prod.fst

/-- `d[key] = value`: an existing key keeps its place, a new one goes last. -/
def set (key : String) (value : α) : Dict α → Dict α
  | [] => [(key, value)]
  | (k, a) :: rest => if k = key then (k, value) :: rest else (k, a) :: set key value rest

end Dict

/-! ## Definitions -/

inductive InputSource where
  | workflowInput
  | stepOutput
  deriving DecidableEq, Repr

structure InputRef where
  source : InputSource
  key : String
  stepId : Option String
  deriving DecidableEq, Repr

structure Condition (V : Type) where
  value : InputRef
  equals : V

structure Step (V : Type) where
  (stepId capabilityId : String)
  confirmedCapabilityId : Option String
  staticArguments : Dict V
  inputMapping : Dict InputRef
  when : Option (Condition V)

structure Definition (V : Type) where
  (workflowId version : String)
  steps : List (Step V)
  outputStepIds : List String

/-- The references a step resolves: its input mapping and its condition. -/
def Step.references (step : Step V) : List InputRef :=
  step.inputMapping.map Prod.snd ++ (step.when.map Condition.value).toList

/-! ## Exceptions, replies and results -/

/-- What a procedure may raise. `VersionBindingMismatchError` is kept apart from
the other `ValueError`s, as the handlers do; `other` is any exception that is
not a `ValueError`. -/
inductive Exn where
  | valueError (message : String)
  | versionBindingMismatch (message : String)
  | other (message : String)
  deriving DecidableEq, Repr

inductive ErrorCode where
  | identityUnbound | identityExpired | identityRevoked | needsBindingScope | policyDenied
  | confirmRequired | adapterTimeout | capabilityNotFound | adapterError
  | adapterPayloadInvalid | adapterMissingRequiredField | adapterEmptyResponse
  | adapterHttp500 | upstreamPermissionDenied | internalError
  | capabilityCandidatesLowConfidence | capabilityCandidatesAmbiguous
  | capabilityCandidatesOverBudget | capabilityCatalogInvalid
  | capabilityCandidateOutOfScope | capabilityCandidateStale | mcpContractUnconfirmed
  | mcpOutcomeUnknown
  deriving DecidableEq, Repr

inductive ExecutionStatus where
  | completed | failed | denied | bindingRequired | timeout | noCapabilityFound
  | waitingUser | running
  deriving DecidableEq, Repr

structure ExecutionResult (V : Type) where
  status : ExecutionStatus
  data : Option (Dict V)
  errorCode : Option ErrorCode

def retryableErrorCodes : List ErrorCode := [.adapterTimeout]

def maxStepRetries : Nat := 1

/-- A failure the step loop tries again. -/
def ExecutionResult.retryable (execution : ExecutionResult V) : Bool :=
  (execution.status == .failed || execution.status == .timeout) &&
    match execution.errorCode with
    | some code => retryableErrorCodes.contains code
    | none => false

inductive RunStatus where
  | completed | denied | waitingConfirm | failed | timeout
  deriving DecidableEq, Repr

/-- The output of a run: that of the last step, or the outputs of the selected
steps by their ids. -/
inductive Output (V : Type) where
  | last (output : Dict V)
  | selected (outputs : Dict (Dict V))

structure StepObservation where
  (workflowId workflowVersion stepId capabilityId : String)
  attempt : Nat
  payloadJson : String
  deriving DecidableEq, Repr

structure RunResult (V : Type) where
  (workflowId workflowVersion traceId : String)
  status : RunStatus
  output : Output V
  stepOutputs : Dict (Dict V)
  errorCode : Option ErrorCode
  evaluationObservations : List StepObservation

/-! ## Structure -/

/-- The checks of the step loop of `validate_structure`, after the step ids
`seen`. -/
def validateStepIds : List (Step V) → List String → Except Exn Unit
  | [], _ => .ok ()
  | step :: rest, seen =>
    if step.stepId = "" ∨ step.stepId ∈ seen then
      .error (.valueError "Workflow step ids must be non-empty and unique")
    else if step.references.any fun ref =>
        ref.source == .stepOutput && !ref.stepId.any seen.contains then
      .error (.valueError "Workflow step_output references must target a strictly earlier step")
    else validateStepIds rest (step.stepId :: seen)

def validateStructure (definition : Definition V) : Except Exn Unit :=
  let unconditional := (definition.steps.filter fun step => step.when.isNone).map Step.stepId
  if definition.steps.isEmpty then
    .error (.valueError "Workflow steps must not be empty")
  else if ¬definition.outputStepIds.Nodup ∨
      definition.outputStepIds.any fun stepId => stepId == "" || !unconditional.contains stepId then
    .error (.valueError "Workflow output selection is invalid")
  else validateStepIds definition.steps []

/-! ## Arguments and conditions -/

def resolveValue (ref : InputRef) (initialInput : Dict V) (stepOutputs : Dict (Dict V)) :
    Except Exn V :=
  match ref.source with
  | .workflowInput =>
    match ref.stepId, initialInput.get? ref.key with
    | none, some value => .ok value
    | _, _ => .error (.valueError "invalid Workflow input mapping")
  | .stepOutput =>
    match ref.stepId with
    | none => .error (.valueError "step output mapping requires step_id")
    | some stepId =>
      match (stepOutputs.get? stepId).bind (Dict.get? · ref.key) with
      | some value => .ok value
      | none => .error (.valueError "Workflow step output is unavailable")

/-- Whether a step is to be executed: it has no condition, or its condition
matches under the comparison `equal`. -/
def Step.selected (step : Step V) (equal : V → V → Bool) (initialInput : Dict V)
    (stepOutputs : Dict (Dict V)) : Except Exn Bool :=
  match step.when with
  | none => .ok true
  | some condition =>
    (resolveValue condition.value initialInput stepOutputs).map (equal · condition.equals)

/-- The values of an input mapping, put over the arguments so far. -/
def mapArguments (initialInput : Dict V) (stepOutputs : Dict (Dict V)) :
    Dict InputRef → Dict V → Except Exn (Dict V)
  | [], arguments => .ok arguments
  | (name, ref) :: rest, arguments => do
    let value ← resolveValue ref initialInput stepOutputs
    mapArguments initialInput stepOutputs rest (arguments.set name value)

/-- The arguments of a step: the static ones, overridden by the input mapping. -/
def Step.arguments (step : Step V) (initialInput : Dict V) (stepOutputs : Dict (Dict V)) :
    Except Exn (Dict V) :=
  mapArguments initialInput stepOutputs step.inputMapping step.staticArguments

def Definition.output (definition : Definition V) (stepOutputs : Dict (Dict V))
    (finalOutput : Dict V) : Except Exn (Output V) :=
  if definition.outputStepIds.isEmpty then .ok (.last finalOutput)
  else if definition.outputStepIds.any fun stepId => !stepOutputs.contains stepId then
    .error (.valueError "Workflow selected output is unavailable")
  else .ok (.selected (definition.outputStepIds.filterMap fun stepId =>
    (stepOutputs.get? stepId).map fun output => (stepId, output)))

/-! ## What is written to the task store -/

inductive StepStatus where
  | skipped | waitingConfirm | denied | failed | timeout | completed
  deriving DecidableEq, Repr

/-- The event a waiting run leaves: names and keys only, no values. -/
structure CheckpointState where
  (workflowId workflowVersion waitingStepId : String)
  waitingStepIndex : Nat
  confirmedCapabilityId : Option String
  completedStepIds : List String
  stepOutputKeys : Dict (List String)
  recoveryInputKeys : List String
  deriving DecidableEq, Repr

/-- The keys of earlier outputs that the remaining steps refer to, with the step
that produced them. -/
def outputReferences (references : List InputRef) (stepOutputs : Dict (Dict V)) :
    List (String × String) :=
  references.filterMap fun ref =>
    if ref.source = .stepOutput then
      ref.stepId.bind fun stepId => (stepOutputs.get? stepId).bind fun output =>
        if output.contains ref.key then some (stepId, ref.key) else none
    else none

/-- `sorted(set(keys))`. -/
def sortedKeys (keys : List String) : List String := keys.eraseDups.mergeSort

def checkpointState (definition : Definition V) (waitingStep : Step V) (waitingStepIndex : Nat)
    (initialInput : Dict V) (stepOutputs : Dict (Dict V)) : CheckpointState :=
  let references := (definition.steps.drop waitingStepIndex).flatMap Step.references
  let outputs := outputReferences references stepOutputs
  { workflowId := definition.workflowId
    workflowVersion := definition.version
    waitingStepId := waitingStep.stepId
    waitingStepIndex := waitingStepIndex
    confirmedCapabilityId := waitingStep.confirmedCapabilityId
    completedStepIds := stepOutputs.keys
    stepOutputKeys := (outputs.map Prod.fst).eraseDups.map fun stepId =>
      (stepId, sortedKeys ((outputs.filter fun o => o.1 == stepId).map Prod.snd))
    recoveryInputKeys := sortedKeys (references.filterMap fun ref =>
      if ref.source = .workflowInput ∧ initialInput.contains ref.key then some ref.key
      else none) }

inductive Event where
  | workflowStarted (workflowId version : String)
  | workflowResumed (workflowId version waitingStepId : String) (waitingStepIndex : Nat)
      (confirmedCapabilityId : Option String)
  | stepFinished (stepId : String) (stepIndex : Nat) (status : StepStatus)
      (attempt : Option Nat) (errorCode : Option ErrorCode)
  | workflowWaitingConfirm (state : CheckpointState)
  | workflowCompleted (status : RunStatus)
  | workflowFailed (status : RunStatus) (errorCode : Option ErrorCode)
  deriving DecidableEq, Repr

/-- What the digest of a pending confirmation is taken of. -/
structure PendingAction (V : Type) where
  (workflowId workflowVersion stepId : String)
  stepIndex : Nat
  (waitingCapabilityId confirmedCapabilityId : String)
  arguments : Dict V

end EternalAI.Workflow
