import EternalAI.Runs.Store

/-!
# Browser runs — confirmed writes

The transactions of the run store about steps and writes. A write of a run is
prepared once, confirmed by a person, consumed under the worker and the lease
that reserve the first send, and each sent step is reserved, passes a final
barrier and is recorded; all of it by events in the journal of the task.

* `Manifest.checkStepRoute` — the recorded steps follow the frozen sequence, in
  which only the registered page advance repeats.
* `recordWritePreparation`, `reserveWriteDispatch`, `assertWriteReservation`,
  `recordStep`, `recordTraversalTerminal`.
* `recordFillStop`, `reserveFillStop`, `assertFillStopReservation` — the same for
  one finite form flow.
-/

namespace EternalAI.Runs

open Lib
open Dispatch (Str Time)
open Leases (Bytes Owner)

/-! ## Recorded steps and their route -/

def Payload.writePrepared? : Payload → Option WritePreparation
  | .writePrepared preparation => some preparation
  | _ => none

def Payload.writeConsumed? : Payload → Option Consumed
  | .writeConsumed facts => some facts
  | _ => none

def Payload.writeSend? : Payload → Option Send
  | .writeSend facts => some facts
  | _ => none

def Payload.fillStopSend? : Payload → Option FillStopSend
  | .fillStopSend facts => some facts
  | _ => none

def Payload.writeBarrier? : Payload → Option Barrier
  | .writeBarrier facts => some facts
  | _ => none

def Payload.traversalTerminal? : Payload → Option TraversalTerminal
  | .traversalTerminal facts => some facts
  | _ => none

/-- A `browser_run_step` event: the revision it was written at, and the step. -/
def Event.stepRow (event : Event) : Option (Nat × TeachingStep) :=
  match event.payload with
  | .runStep step => some (event.runRevision, step)
  | _ => none

/-- The rows of `_audited_steps`, ordered by sequence. -/
def State.stepRows (s : State) : List (Nat × TeachingStep) :=
  (s.events.filterMap Event.stepRow).insertionSort fun a b => a.2.sequence ≤ b.2.sequence

/-- The rows count from `sequence` on, and none is of a later revision. -/
def rowsCount (stateRevision : Nat) : Nat → List (Nat × TeachingStep) → Bool
  | _, [] => true
  | sequence, (revision, step) :: rest =>
    step.sequence = sequence && 1 ≤ revision && revision ≤ stateRevision &&
      rowsCount stateRevision (sequence + 1) rest

def State.auditedSteps (s : State) : Except RunError (List TeachingStep) := do
  let rows := s.stepRows
  ensure (rows.length ≤ maxStepAudits) .stepAuditOverflow
  ensure (rowsCount s.run.stateRevision 1 rows) .stepAuditInvalid
  pure (rows.map Prod.snd)

/-- The variables of the loop in `_check_step_route`. -/
structure RouteCursor where
  (cursor advances : Nat)
  usedTerminal : Bool
  deriving DecidableEq

section

variable (manifest : Manifest) (terminalAfter : Option Nat)

/-- One round of that loop, for the step at `index`. -/
def Manifest.routeStep (index : Nat) (stepId : Str) (c : RouteCursor) :
    Except RunError RouteCursor :=
  let advanceId := manifest.traversal.map Traversal.advanceStepId
  match manifest.steps[c.cursor]? with
  | none => .error .stepAuditSequenceConflict
  | some expected =>
    if stepId = expected.stepId then
      if some stepId = advanceId then do
        ensure (∀ n ∈ terminalAfter, index < n) .stepAuditSequenceConflict
        ensure (∃ traversal ∈ manifest.traversal, c.advances + 1 < traversal.maxPages)
          .stepAuditSequenceConflict
        pure { c with advances := c.advances + 1 }
      else pure { c with cursor := c.cursor + 1 }
    else do
      -- the page advance is skipped where its end was recorded
      ensure (some expected.stepId = advanceId ∧ terminalAfter = some index ∧
        (manifest.steps[c.cursor + 1]?).map SkillStep.stepId = some stepId)
        .stepAuditSequenceConflict
      pure { c with usedTerminal := true, cursor := c.cursor + 2 }

/-- The loop of `_check_step_route`. -/
def Manifest.routeLoop (manifest : Manifest) (terminalAfter : Option Nat) :
    Nat → List Str → RouteCursor → Except RunError RouteCursor
  | _, [], c => .ok c
  | index, stepId :: rest, c => do
    let c' ← manifest.routeStep terminalAfter index stepId c
    manifest.routeLoop terminalAfter (index + 1) rest c'

/-- The route stands before the page advance, whose end was recorded last. -/
def Manifest.atTerminal (count : Nat) (c : RouteCursor) : Prop :=
  c.cursor + 1 = manifest.steps.length ∧ terminalAfter = some count ∧
    (manifest.steps[c.cursor]?).map SkillStep.stepId =
      manifest.traversal.map Traversal.advanceStepId

instance (count : Nat) (c : RouteCursor) :
    Decidable (manifest.atTerminal terminalAfter count c) := by
  unfold Manifest.atTerminal
  infer_instance

/-- `_check_step_route` for an unfinished run (`complete=False`). -/
def Manifest.checkStepRoute (stepIds : List Str) (terminalAfter : Option Nat) :
    Except RunError Unit :=
  match manifest.exploration with
  | some maxSteps =>
    ensure (stepIds.length ≤ maxSteps ∧
      ∀ stepId ∈ stepIds, stepId ∈ manifest.primitiveRules.map fun rule => rule.step.stepId)
      .stepAuditSequenceConflict
  | none => do
    ensure (∀ n ∈ terminalAfter, manifest.traversal.isSome ∧ n ≤ stepIds.length)
      .stepAuditSequenceConflict
    let c ← manifest.routeLoop terminalAfter 0 stepIds ⟨0, 0, false⟩
    ensure (terminalAfter.isSome → ¬c.usedTerminal →
      manifest.atTerminal terminalAfter stepIds.length c) .stepAuditSequenceConflict

end

def Run.epochs (run : Run) : Epochs := ⟨run.workerEpoch, run.leaseEpoch⟩

/-- `_traversal_terminal_in_session`. -/
def State.traversalTerminal (s : State) (manifest : Manifest) : Except RunError (Option Nat) :=
  match s.event (.traversalTerminal s.run.admission.runId) with
  | none => .ok none
  | some event =>
    match event.payload.traversalTerminal? with
    | none => .error .traversalAuditInvalid
    | some facts => do
      ensure (facts.publicationDigest = manifest.digest ∧ facts.epochs = s.run.epochs ∧
        facts.sequence ≤ maxStepAudits ∧ ∃ traversal ∈ manifest.traversal,
          1 ≤ facts.pageCount ∧ facts.pageCount ≤ traversal.maxPages) .traversalAuditInvalid
      pure (some facts.sequence)

/-- The recorded steps so far, with one more that follows the route. -/
def State.routed (s : State) (manifest : Manifest) (previous : List TeachingStep)
    (stepId : Str) : Except RunError Unit := do
  let terminalAfter ← s.traversalTerminal manifest
  manifest.checkStepRoute (previous.map TeachingStep.stepId ++ [stepId]) terminalAfter

def State.recordTraversalTerminal (env : RunEnv) (claim : Run) (pages : List PageEvidence)
    (sequence : Nat) (answers : Answers) (s : State) : Except RunError (Run × State) := do
  ensure (sequence ≤ maxStepAudits) .traversalAuditInvalid
  let current ← s.locked claim Fence.held answers
  ensure (current.phase = some .running ∧ ¬current.cancelRequested ∧
    current.verification = none ∧ current.effect ≠ .unknown ∧ current.leaseEpoch.isSome)
    .traversalAuditStale
  let manifest ← env.frozenPublication current
  match manifest.traversal with
  | none => .error .traversalAuditIncomplete
  | some traversal =>
    match env.pageChain traversal pages with
    | none => .error .traversalAuditIncomplete
    | some digest => do
      ensure (∃ page ∈ pages.getLast?, page.terminalSeen) .traversalAuditIncomplete
      let previous ← s.auditedSteps
      let ids := previous.map TeachingStep.stepId
      ensure (ids.length = sequence) .traversalAuditSequenceConflict
      let expected := manifest.steps.map SkillStep.stepId
      ensure (traversal.advanceStepId ∈ expected) .traversalAuditSequenceConflict
      let position := expected.idxOf traversal.advanceStepId
      ensure (ids.take position = expected.take position ∧
        (∀ id ∈ ids.drop position, id = traversal.advanceStepId) ∧
        ids.length < traversal.maxPages + position) .traversalAuditSequenceConflict
      let before ← s.traversalTerminal manifest
      ensure (before = none) .traversalAuditReused
      let s' ← s.appendEvent ⟨.traversalTerminal current.admission.runId, current.stateRevision,
        .traversalTerminal ⟨manifest.digest, current.epochs, sequence, pages.length, digest⟩⟩
      pure (current, s')

/-! ## Preparation and confirmation -/

section

variable (row : GateRow) (owner : Owner) (preparation : WritePreparation) (env : RunEnv)

/-- `_write_steps_digest`: every step that may write is known to write. -/
def RunEnv.writeStepsDigest (manifest : Manifest) : Except RunError Bytes := do
  let steps := manifest.siteSteps.filter fun rule =>
    rule.step.effect = .mayWrite ∨ rule.actualEffect = .mayWrite
  ensure (steps ≠ [] ∧
    ∀ rule ∈ steps, rule.step.effect = .mayWrite ∧ rule.actualEffect = .mayWrite)
    .writeEffectUnproved
  pure (env.rulesDigest steps)

/-- The row is the one `gate_request` would ask for. -/
def GateRow.asksFor : Prop :=
  row.taskId = preparation.taskId ∧ row.owner = owner ∧
    row.actionDigest = preparation.actionDigest ∧
    row.requestDigest = preparation.requestDigest ∧
    row.bindingManifestDigest = preparation.bindingManifestDigest ∧
    row.requestedAt = preparation.requestedAt ∧ row.expiresAt = preparation.expiresAt

instance : Decidable (row.asksFor owner preparation) := by
  unfold GateRow.asksFor
  infer_instance

def GateRow.confirmedBy : Prop :=
  row.confirmed ∧ row.decidedBy = some owner ∧
    ∃ decided ∈ row.decidedAt, row.requestedAt ≤ decided ∧ decided < row.expiresAt

instance : Decidable (row.confirmedBy owner) := by
  unfold GateRow.confirmedBy
  infer_instance

def State.gateRequest (s : State) (run : Run) (preparation : WritePreparation)
    (confirmed : Bool) : Except RunError Unit :=
  match s.gates preparation.requestId with
  | none => .error .writeConfirmationMissing
  | some row => do
    ensure (row.asksFor run.admission.owner preparation) .writeConfirmationMismatch
    ensure (s.clock < row.expiresAt) .writeConfirmationExpired
    ensure (confirmed → row.confirmedBy run.admission.owner) .writeConfirmationUnapproved

/-- The preparation is about this run, as `_prepared_write` compares it. -/
def WritePreparation.isFor (run : Run) : Prop :=
  preparation.taskId = run.admission.taskId ∧ preparation.runId = run.admission.runId ∧
    preparation.ownerDigest = env.ownerDigest run.admission.owner ∧
    preparation.publicationDigest = run.admission.publicationDigest ∧
    preparation.bindingId = run.admission.bindingId ∧
    preparation.bindingRevision = run.admission.bindingRevision ∧
    preparation.inputRevision = run.admission.inputRevision ∧
    preparation.parameterSetDigest = run.admission.inputDigest

instance (run : Run) : Decidable (preparation.isFor env run) := by
  unfold WritePreparation.isFor
  infer_instance

def State.preparedWrite (s : State) : Except RunError WritePreparation := do
  let found ← s.writeEvent (.writePrepared s.run.admission.runId) Payload.writePrepared?
  match found with
  | none => .error .writePreparationMissing
  | some preparation => do
    ensure (preparation.isFor env s.run) .writePreparationMismatch
    pure preparation

/-- The preparation is about this publication, as `record_write_preparation` adds. -/
def WritePreparation.describes (manifest : Manifest) : Prop :=
  preparation.publicationDigest = manifest.digest ∧ preparation.skillId = manifest.skillId ∧
    preparation.skillVersion = manifest.skillVersion ∧
    preparation.skillDigest = manifest.skillDigest ∧ preparation.siteId = manifest.siteId ∧
    preparation.siteDigest = manifest.siteDigest ∧
    preparation.verifierId = manifest.verifierId ∧
    preparation.verifierDigest = manifest.verifierDigest ∧
    preparation.objectType = manifest.objectType

end

instance (preparation : WritePreparation) (manifest : Manifest) :
    Decidable (preparation.describes manifest) := by
  unfold WritePreparation.describes
  infer_instance

section

variable (env : RunEnv) (claim : Run) (answers : Answers) (s : State)

/-- `record_write_preparation`: only on a run that nobody works on yet. -/
def State.recordWritePreparation (preparation : WritePreparation) (answers : Answers) (s : State) :
    Except RunError (Run × State) := do
  let current ← s.locked claim ⟨false, false, false⟩ answers
  let id := EventId.writePrepared current.admission.runId
  let existing ← s.writeEvent id Payload.writePrepared?
  match existing with
  | some _ => do
    let recorded ← s.preparedWrite env
    ensure (recorded = preparation) .writePreparationMismatch
    pure (current, s)
  | none => do
    ensure (current.phase = some .queued ∧ current.workerId = none ∧
      current.leaseEpoch = none ∧ ¬current.cancelRequested ∧ current.effect = .notSent ∧
      current.verification = none) .writePreparationStale
    let manifest ← env.frozenPublication current
    ensure (preparation.isFor env current ∧ preparation.describes manifest)
      .writePreparationInvalid
    let stepsDigest ← env.writeStepsDigest manifest
    ensure (preparation.writeStepsDigest = stepsDigest) .writePreparationInvalid
    ensure (∃ rows ∈ s.bindings preparation.bindingManifestDigest,
      ⟨preparation.skillId, preparation.skillVersion, preparation.skillDigest⟩ ∈ rows)
      .writeTaskBindingInvalid
    s.gateRequest current preparation false
    let s₁ ← s.appendEvent ⟨id, current.stateRevision + 1, .writePrepared preparation⟩
    -- `{"effect": current.effect}`: nothing but the revision changes
    let s₂ ← s₁.update fun run => run
    pure (s₂.run, s₂)

/-! ## Reservation, barrier and record of one step -/

def Run.atWork (current : Run) : Prop :=
  current.phase = some .running ∧ ¬current.cancelRequested ∧ current.leaseEpoch.isSome ∧
    current.effect ≠ .unknown

instance (current : Run) : Decidable current.atWork := by
  unfold Run.atWork
  infer_instance

/-- The confirmation is consumed by the first send, and only by a run that has not
written before; later sends find it consumed under the same worker and lease. -/
def State.consume (previous : List TeachingStep) (facts : Consumed) : Except RunError State := do
  let id := EventId.writeConsumed facts.requestId
  let consumed ← s.writeEvent id Payload.writeConsumed?
  match consumed with
  | none => do
    ensure (∀ step ∈ previous, step.effect ≠ .mayWrite) .writeConfirmationNotConsumed
    s.appendEvent ⟨id, s.run.stateRevision + 1, .writeConsumed facts⟩
  | some found => do
    ensure (found = facts) .writeConfirmationReused
    pure s

def State.reserveWriteDispatch (command : ActionCommand) (rule : SiteStepRule) (spec : ReadSpec)
    (sequence : Nat) (answers : Answers) (s : State) : Except RunError (Run × State) := do
  ensure (1 ≤ sequence ∧ sequence ≤ maxStepAudits) .writeSequenceInvalid
  let current ← s.locked claim Fence.held answers
  ensure (current.atWork ∧ current.verification = none ∧
    command.binding.owner = current.admission.owner ∧
    command.binding.bindingId = current.admission.bindingId ∧
    command.binding.bindingRevision = current.admission.bindingRevision ∧
    command.binding.authorizationRunId = some current.admission.runId ∧
    some command.binding.leaseEpoch = current.leaseEpoch) .writeDispatchStale
  let manifest ← env.frozenPublication current
  let preparation ← s.preparedWrite env
  ensure (manifest.steps.find? (·.stepId = command.step.stepId) = some command.step ∧
    manifest.siteSteps.find? (·.step.stepId = command.step.stepId) = some rule ∧
    command.skillDigest = manifest.skillDigest ∧ rule.step.effect = .mayWrite ∧
    rule.actualEffect = .mayWrite ∧ spec.binding = command.binding ∧
    spec.objectType = preparation.objectType ∧
    spec.keyDigest = preparation.businessKeyDigest ∧
    spec.confirmationRef = preparation.businessKeyConfirmationRef) .writeDispatchMismatch
  let stepsDigest ← env.writeStepsDigest manifest
  ensure (preparation.writeStepsDigest = stepsDigest) .writeDispatchMismatch
  s.gateRequest current preparation true
  let previous ← s.auditedSteps
  ensure (previous.length + 1 = sequence) .writeSequenceConflict
  s.routed manifest previous command.step.stepId
  let facts : Consumed := ⟨preparation.requestId, preparation.actionDigest, current.epochs⟩
  let s₁ ← s.consume previous facts
  let sendId := EventId.writeSend current.admission.runId sequence
  let before ← s₁.writeEvent sendId Payload.writeSend?
  ensure (before = none) .writeSendReused
  let s₂ ← s₁.appendEvent ⟨sendId, current.stateRevision + 1,
    .writeSend ⟨preparation.requestId, preparation.actionDigest, sequence, command.step.stepId,
      current.epochs⟩⟩
  let s₃ ← s₂.update fun run => run
  pure (s₃.run, s₃)

/-- `assert_write_reservation`: the last check before the send. -/
def State.assertWriteReservation (command : ActionCommand) (sequence : Nat) (answers : Answers)
    (s : State) : Except RunError (Run × State) := do
  let current ← s.locked claim Fence.held answers
  ensure (current.atWork ∧ command.binding.owner = current.admission.owner ∧
    command.binding.authorizationRunId = some current.admission.runId ∧
    some command.binding.leaseEpoch = current.leaseEpoch) .writeDispatchStale
  let preparation ← s.preparedWrite env
  s.gateRequest current preparation true
  let runId := current.admission.runId
  let send ← s.writeEvent (.writeSend runId sequence) Payload.writeSend?
  ensure (send = some ⟨preparation.requestId, preparation.actionDigest, sequence,
    command.step.stepId, current.epochs⟩) .writeSendUnreserved
  let previous ← s.auditedSteps
  ensure (previous.length + 1 = sequence) .writeSequenceConflict
  let manifest ← env.frozenPublication current
  s.routed manifest previous command.step.stepId
  let barrierId := EventId.writeBarrier runId sequence
  let before ← s.writeEvent barrierId Payload.writeBarrier?
  ensure (before = none) .writeBarrierReused
  let s' ← s.appendEvent ⟨barrierId, current.stateRevision,
    .writeBarrier ⟨sequence, command.step.stepId, current.epochs⟩⟩
  pure (current, s')

/-- The send and the barrier that `record_step` demands of a writing step. -/
def State.sentStep (sequence : Nat) (step : SkillStep) : Except RunError Unit :=
  if step.effect = .mayWrite then do
    let runId := s.run.admission.runId
    let send ← s.writeEvent (.writeSend runId sequence) Payload.writeSend?
    ensure (∃ facts ∈ send, facts.sequence = sequence ∧ facts.stepId = step.stepId ∧
      facts.epochs = s.run.epochs) .writeSendUnreserved
    let barrier ← s.writeEvent (.writeBarrier runId sequence) Payload.writeBarrier?
    ensure (barrier = some ⟨sequence, step.stepId, s.run.epochs⟩) .writeBarrierMissing
  else pure ()

def Manifest.primitiveId (manifest : Manifest) (stepId : Str) : Str :=
  ((manifest.stepPrimitives.find? (·.1 = stepId)).map Prod.snd).getD stepId

/-- The rule of the primitive of a step; a step is its own primitive by default. -/
def Manifest.primitiveRule (manifest : Manifest) (stepId : Str) (rule : SiteStepRule) :
    Except RunError SiteStepRule :=
  match manifest.primitiveRules.find? (·.step.stepId = manifest.primitiveId stepId) with
  | some found => .ok found
  | none => do
    ensure (manifest.primitiveId stepId = stepId) .stepPrimitiveUnregistered
    pure rule

/-- `record_step`. Whether a prepared publication has a teaching plan is one of the
answers; the evidence of an acknowledged receipt is always there. -/
def State.recordStep (command : ActionCommand) (rule : SiteStepRule) (scope : ScopeStamp)
    (receipt : DispatchReceipt) (policyDigest : Bytes) (sequence : Nat) (answers : Answers)
    (s : State) : Except RunError (Run × State) := do
  ensure (1 ≤ sequence ∧ sequence ≤ maxStepAudits) .stepSequenceInvalid
  ensure (receipt.skillDigest = command.skillDigest ∧ receipt.stepId = command.step.stepId)
    .stepReceiptInvalid
  match receipt.evidenceDigest with
  | none => .error .stepAuditInvalid
  | some evidence => do
    ensure (receipt.state = .acknowledged ∧ command.step = rule.step ∧
      command.step.effect.actual = rule.actualEffect ∧
      command.binding.owner = claim.admission.owner ∧
      command.binding.bindingId = claim.admission.bindingId ∧
      command.binding.bindingRevision = claim.admission.bindingRevision ∧
      command.binding.authorizationRunId = some claim.admission.runId ∧
      command.binding.evidenceVersion = some claim.admission.authEvidenceVersion ∧
      some command.binding.leaseEpoch = claim.leaseEpoch ∧ scope.regionId = rule.regionId)
      .stepAuditInvalid
    let current ← s.locked claim Fence.held answers
    ensure (current.atWork ∧ current.verification = none) .stepAuditStale
    let manifest ← env.frozenPublication current
    answers.check 1
    ensure (manifest.steps.find? (·.stepId = command.step.stepId) = some command.step ∧
      manifest.siteSteps.find? (·.step.stepId = command.step.stepId) = some rule ∧
      manifest.skillDigest = command.skillDigest ∧ manifest.policyDigest = policyDigest)
      .stepAuditPublicationMismatch
    let primitive ← manifest.primitiveRule command.step.stepId rule
    let previous ← s.auditedSteps
    ensure (previous.length + 1 = sequence) .stepAuditSequenceConflict
    s.routed manifest previous command.step.stepId
    s.sentStep sequence command.step
    let step : TeachingStep := ⟨sequence, command.step.stepId, command.step.effect,
      command.step.operation, scope, command.target, policyDigest, manifest.skillVersion,
      manifest.skillDigest, command.binding, manifest.primitiveId command.step.stepId,
      env.ruleDigest primitive, evidence⟩
    let s₁ ← s.appendEvent ⟨.runStep current.admission.runId sequence,
      current.stateRevision + 1, .runStep step⟩
    let s₂ ← s₁.update fun run => { run with effect := .acknowledged }
    pure (s₂.run, s₂)

/-! ## One finite form flow -/

def State.recordFillStop (report : FillStopReport) (answers : Answers) (s : State) :
    Except RunError (Run × State) := do
  let current ← s.locked claim Fence.held answers
  let manifest ← env.frozenPublication current
  ensure (manifest.executionMode = .dFormFillStop) .fillStopReceiptDenied
  let id := EventId.fillStopReceipt current.admission.runId
  let existing ← s.writeEvent id Payload.fillStopReceipt?
  match existing with
  | some found => do
    ensure (found = report) .fillStopReceiptConflict
    pure (current, s)
  | none => do
    let s' ← s.appendEvent ⟨id, current.stateRevision, .fillStopReceipt report⟩
    pure (current, s')

/-- `reserve_fill_stop`: the confirmation is consumed and the flow reserved at once. -/
def State.reserveFillStop : Except RunError (Run × State) := do
  let current ← s.locked claim Fence.held answers
  let manifest ← env.frozenPublication current
  ensure (manifest.executionMode = .dFormFillStop ∧ manifest.controlledWrite ∧
    current.phase = some .running ∧ ¬current.cancelRequested ∧ current.leaseEpoch.isSome ∧
    current.effect = .notSent ∧ current.verification = none) .fillStopDispatchStale
  let preparation ← s.preparedWrite env
  s.gateRequest current preparation true
  let stepsDigest ← env.writeStepsDigest manifest
  ensure (preparation.writeStepsDigest = stepsDigest) .fillStopDispatchMismatch
  let consumedId := EventId.writeConsumed preparation.requestId
  let sendId := EventId.fillStopSend current.admission.runId
  let consumed ← s.writeEvent consumedId Payload.writeConsumed?
  let sent ← s.writeEvent sendId Payload.fillStopSend?
  ensure (consumed = none ∧ sent = none) .writeSendReused
  let s₁ ← s.appendEvent ⟨consumedId, current.stateRevision + 1,
    .writeConsumed ⟨preparation.requestId, preparation.actionDigest, current.epochs⟩⟩
  let s₂ ← s₁.appendEvent ⟨sendId, current.stateRevision + 1,
    .fillStopSend ⟨preparation.requestId, preparation.actionDigest,
      preparation.writeStepsDigest, current.epochs⟩⟩
  let s₃ ← s₂.update fun run => run
  pure (s₃.run, s₃)

/-- `assert_fill_stop_reservation`; it writes nothing. -/
def State.assertFillStopReservation : Except RunError (Run × State) := do
  let current ← s.locked claim Fence.held answers
  let manifest ← env.frozenPublication current
  ensure (manifest.executionMode = .dFormFillStop ∧ current.phase = some .running ∧
    ¬current.cancelRequested ∧ current.leaseEpoch.isSome ∧ current.effect = .notSent)
    .fillStopDispatchStale
  let preparation ← s.preparedWrite env
  s.gateRequest current preparation true
  let send ← s.writeEvent (.fillStopSend current.admission.runId) Payload.fillStopSend?
  ensure (send = some ⟨preparation.requestId, preparation.actionDigest,
    preparation.writeStepsDigest, current.epochs⟩) .writeSendUnreserved
  pure (current, s)

end

end EternalAI.Runs
