import EternalAI.Dispatch.Store
import EternalAI.Lib.Commit

/-!
# Dispatched tasks — the service and its clients

`WorkDispatchService` of `app/work_dispatch/service.py`. A request reads the
organisation directory, reads the task, prepares what the transaction will
need, and only then enters the transaction: between its reads and its
transaction any number of other requests may commit. The directory, the roster
of leaders and the trace port are outside the store; what a request gets from
them is part of the request.

* `prepareDispatch` — the rows of a dispatch request.
* `commandLifecycleForPrincipal`, `dispatchForPrincipal` — the two procedures
  with more than one access to the store.
* `ServiceRun` — interleavings of any number of requests, of any kind, by
  anybody.
-/

namespace EternalAI.Dispatch

open Lib

/-! ## Scopes -/

section

variable (subject : Subject) (fresh : FreshDirectory)

/-- The only membership of the subject, in a department that exists. -/
def soleMembership : Option Membership :=
  match fresh.membershipsOf (subject.directoryUserId.getD []) with
  | [m] => if fresh.hasDepartment m.departmentId then some m else none
  | _ => none

/-- `_member`. -/
def memberOf : Except DispatchError Membership :=
  match fresh.membershipsOf (subject.directoryUserId.getD []) with
  | [] => .error .directoryMembershipMissing
  | [m] => if fresh.hasDepartment m.departmentId then .ok m
    else .error .directoryMembershipMissing
  | _ => .error .directoryMembershipAmbiguous

/-- The department that a membership is the only head of. -/
def headedDepartments (m : Membership) : List Str :=
  match fresh.heads m.departmentId with
  | [head] => if isDepartmentHead m ∧ head.userId = m.userId then [m.departmentId] else []
  | _ => []

/-- `_scope`. -/
def scopeOf (fresh : Option FreshDirectory) : Scope :=
  let member := fresh.bind (soleMembership subject)
  { tenantId := subject.tenantId
    aiUserId := subject.aiUserId
    departmentId := member.map (·.departmentId)
    directoryUserId := subject.directoryUserId
    responsibleDepartmentIds := match fresh, member with
      | some fresh, some m => headedDepartments fresh m
      | _, _ => []
    validUntil := fresh.map (·.validUntil)
    identified := subject.identified }

/-- `fresh.recheck()`. -/
def FreshDirectory.recheck (now : Tick) : Except DispatchError Unit :=
  if fresh.validUntil < now then .error .organizationDirectoryStale else .ok ()

/-- `may_dispatch_to`, for the kind, the department and the user of a target. -/
def mayDispatchTo (m : Membership) (leaders : List Str) :
    TargetKind × Str × Option Str → Bool
  | (kind, departmentId, directoryUserId) =>
    m.userId ∈ leaders || (kind == .user && directoryUserId == some m.userId) ||
      (isDepartmentHead m && (kind == .department || departmentId == m.departmentId))

/-- The target exists and is unambiguous. -/
def resolveTarget (target : DispatchTarget) : Except DispatchError Unit :=
  if fresh.hasDepartment target.departmentId then
    match target with
    | .user u d =>
      match fresh.membershipsOf u.val with
      | [m] => if m.departmentId = d.val then .ok () else .error .dispatchTargetMembershipMissing
      | [] => .error .dispatchTargetMembershipMissing
      | _ => .error .dispatchTargetMembershipAmbiguous
    | .department d =>
      match fresh.heads d.val with
      | [] => .error .dispatchDepartmentHeadMissing
      | [head] => if (fresh.membershipsOf head.userId).length = 1 then .ok ()
        else .error .dispatchDepartmentHeadAmbiguous
      | _ => .error .dispatchDepartmentHeadAmbiguous
  else .error .dispatchTargetDepartmentMissing

end

def resolveTargets (fresh : FreshDirectory) : List DispatchTarget → Except DispatchError Unit
  | [] => .ok ()
  | t :: ts => do
    resolveTarget fresh t
    resolveTargets fresh ts

section

variable (subject : Subject) (mode : DispatchMode) (request : DispatchRequest)

/-- `_validate_targets`: the authority over the whole batch comes first. -/
def validateTargets (targets : List DispatchTarget) (fresh : FreshDirectory) (leaders : List Str) :
    Except DispatchError Unit := do
  let actor ← memberOf subject fresh
  if targets.all (mayDispatchTo actor leaders ·.columns) then resolveTargets fresh targets
  else if isDepartmentHead actor || actor.userId ∈ leaders then
    .error .crossDepartmentDispatchDenied
  else .error .notDepartmentHead

/-! ## Preparing a dispatch -/

/-- What a preparation draws: the time, and an id for each task and for each
relation of it. -/
structure Preparation where
  fresh : FreshDirectory
  leaders : List Str
  now : Time
  workObjectId : Nat → Str
  relationId : Nat → Nat → Uuid
  recheckedAt : Tick

/-- The target a task belongs to, with all targets of the task. -/
def DispatchRequest.groups : List (DispatchTarget × List DispatchTarget) :=
  match request.dispatchMode, request.leadTarget with
  | .independent, _ => request.targets.map fun t => (t, [t])
  | .collaborative, some lead => [(lead, request.targets)]
  | .collaborative, none => []

def preparedRoot (prep : Preparation) (workObjectId : Str) (lead : DispatchTarget) : Root where
  workObjectId := workObjectId
  tenantId := subject.tenantId
  ownerDepartmentId := lead.departmentId
  initiatorAiUserId := subject.aiUserId
  targetKind := lead.kind
  assigneeAiUserId := none
  assigneeDisplayName := match lead.kind with
    | .department => (prep.fresh.departments.find? (·.departmentId = lead.departmentId)).map
        (·.displayName)
    | .user => none
  assigneeDirectoryUserId := lead.directoryUserId
  title := request.title.val
  kind := request.kind
  requirement := request.requirement.val
  receiptRequirement := request.receiptRequirement.val
  dueAt := request.dueAt
  reminderChoices := request.reminderChoices
  status := initialStatus lead.kind
  version := 1
  acceptedByAiUserId := none
  acceptedAt := none
  completedByAiUserId := none
  completedAt := none
  withdrawnByAiUserId := none
  withdrawnAt := none
  dispatchModelVersion := some 2
  dispatchMode := some request.dispatchMode
  completionMode := some request.completionMode
  createdAt := prep.now
  updatedAt := prep.now

def roleOf (lead target : DispatchTarget) : Role :=
  match mode with
  | .independent => .single
  | .collaborative => if target = lead then .lead else .collaborator

def preparedRelation (now : Time) (workObjectId : Str) (lead target : DispatchTarget) (id : Uuid) :
    Relation where
  relationId := id
  tenantId := subject.tenantId
  workObjectId := workObjectId
  targetKind := target.kind
  targetDepartmentId := target.departmentId
  targetDirectoryUserId := target.directoryUserId
  role := roleOf mode lead target
  assigneeDirectoryUserId := target.directoryUserId
  assigneeAiUserId := none
  status := match target.kind with
    | .user => .assigned
    | .department => .departmentPending
  acceptedAt := none
  acceptedByAiUserId := none
  submittedAt := none
  submittedByAiUserId := none
  submittedResult := none
  reviewedAt := none
  reviewedByAiUserId := none
  reviewResult := none
  reviewReason := none
  createdAt := now
  updatedAt := now
  supersededAt := none

def preparedRelations (now : Time) (workObjectId : Str) (id : Nat → Uuid) (lead : DispatchTarget)
    (targets : List DispatchTarget) : List Relation :=
  targets.zipIdx.map fun t => preparedRelation subject mode now workObjectId lead t.1 (id t.2)

def preparedRecords (prep : Preparation) : List (Root × List Relation) :=
  request.groups.zipIdx.map fun g =>
    (preparedRoot subject request prep (prep.workObjectId g.2) g.1.1,
      preparedRelations subject request.dispatchMode prep.now (prep.workObjectId g.2)
        (prep.relationId g.2) g.1.1 g.1.2)

end

/-- Building a record runs its validator. -/
def validateRecords : List (Root × List Relation) → Except DispatchError Unit
  | [] => .ok ()
  | record :: rest =>
    match record.1.validateDispatch with
    | .ok _ => validateRecords rest
    | .error message => .error (.validationError message)

def prepareDispatch (env : Env) (subject : Subject) (request : DispatchRequest) (key : Uuid)
    (prep : Preparation) : Except DispatchError PreparedDispatch := do
  validateTargets subject request.targets prep.fresh prep.leaders
  let records := preparedRecords subject request prep
  validateRecords records
  prep.fresh.recheck prep.recheckedAt
  pure {
    scope := scopeOf subject (some prep.fresh)
    idempotencyKey := key
    requestFingerprint := env.requestFingerprint request
    records := records
    attachmentIds := request.attachmentIds
    validUntil := prep.fresh.validUntil }

/-! ## Lifecycle commands -/

/-- A request to carry out a lifecycle command, with all it gets from outside
the store. `reassignment` is what preparing new targets would draw. -/
structure CommandCall where
  workObjectId : Str
  subject : Subject
  fresh : FreshDirectory
  command : LifecycleCommand
  ifMatch : String
  idempotencyKey : Uuid
  reassignment : Preparation
  audited : Bool
  eventId : Uuid
  now : Time
  clock : Clock
  newRelationId : Uuid
  newAttachmentId : Nat → Uuid

/-- The readings after the first `n`. -/
def Clock.later (clock : Clock) (n : Nat) : Clock where
  reading := fun i => clock.reading (i + n)
  mono := fun _ _ hij => clock.mono _ _ (Nat.add_le_add_right hij n)

/-- The assignee of a legacy row, as `_prepare_legacy_relation` resolves it. -/
def legacyConversionAssignee (root : Root) (scope : Scope) (fresh : FreshDirectory) :
    Except DispatchError (Option Str) :=
  match root.targetKind with
  | .user =>
    match fresh.membershipsOf (root.assigneeDirectoryUserId.getD []) with
    | [m] => if m.departmentId = root.ownerDepartmentId then .ok root.assigneeDirectoryUserId
      else .error .workObjectLegacyConversionBlocked
    | _ => .error .workObjectLegacyConversionBlocked
  | .department =>
    match fresh.heads root.ownerDepartmentId with
    | [head] =>
      if (fresh.membershipsOf head.userId).length ≠ 1 then
        .error .workObjectLegacyConversionBlocked
      else if root.acceptedByAiUserId = none then .ok none
      else if root.acceptedByAiUserId = some scope.aiUserId ∧
          scope.departmentId = some root.ownerDepartmentId then .ok scope.directoryUserId
      else .error .workObjectLegacyConversionBlocked
    | _ => .error .workObjectLegacyConversionBlocked

section

variable (env : Env) (call : CommandCall) (root : Root)

/-- The status of the relation that is stored for a legacy row. -/
def Root.conversionStatus (assignee : Option Str) : RelationStatus :=
  if root.acceptedAt.isSome then .inProgress
  else if assignee.any (· ≠ []) then .assigned
  else .departmentPending

def prepareLegacyRelation (scope : Scope) (fresh : FreshDirectory) :
    Except DispatchError Relation :=
  if fresh.hasDepartment root.ownerDepartmentId then
    match legacyConversionAssignee root scope fresh with
    | .ok assignee =>
      .ok (root.legacyRecord env scope.tenantId assignee (root.conversionStatus assignee))
    | .error e => .error e
  else .error .workObjectLegacyConversionBlocked

/-- The relation for the conversion of a legacy row that is not finished. -/
def legacyConversion (scope : Scope) (fresh : FreshDirectory) :
    Except DispatchError (Option Relation) :=
  if root.dispatchModelVersion.isNone ∧ ¬ root.frozen then
    (prepareLegacyRelation env root scope fresh).map some
  else .ok none

/-- An assignee must belong to the department of the actor only. -/
def checkAssignee (command : LifecycleCommand) (member : Membership) (fresh : FreshDirectory) :
    Except DispatchError Unit :=
  match command with
  | .assign _ user =>
    match fresh.membershipsOf user.val with
    | [] => .error .workObjectActionForbidden
    | [m] => if m.departmentId = member.departmentId then .ok ()
      else .error .workObjectActionForbidden
    | _ => .error .dispatchTargetMembershipAmbiguous
  | _ => .ok ()

/-- The dispatch request that a reassignment is validated as. -/
def Root.reassignmentRequest (targets : List DispatchTarget) (lead : Option DispatchTarget) :
    RawRequest where
  kind := root.kind
  title := root.title
  requirement := root.requirement
  receiptRequirement := root.receiptRequirement
  dueAt := root.dueAt
  reminderChoices := root.reminderChoices
  targets := targets
  dispatchMode := root.dispatchMode.getD .independent
  completionMode := root.completionMode.getD .submitCompletes
  leadTarget := lead
  attachmentIds := []

/-- What the transaction gets for a reassignment: the new relations and the
name of the leading department. -/
structure Replacement where
  relations : Option (List Relation)
  departmentName : Option Str
  deriving DecidableEq

/-- Only the relations of a prepared dispatch are used, for the present task. -/
def PreparedDispatch.replacement (p : PreparedDispatch) (workObjectId : Str) : Replacement where
  relations := some ((p.records.flatMap (·.2)).map fun r => { r with workObjectId := workObjectId })
  departmentName := p.records.head?.bind (·.1.assigneeDisplayName)

/-- The replacement for a reassignment of the task that was read. -/
def prepareReplacement : Except DispatchError Replacement :=
  match call.command with
  | .reassign targets lead =>
    if root.dispatchMode.getD .independent = .independent ∧ targets.length ≠ 1 then
      .error .workObjectLifecycleRequestInvalid
    else
      match (root.reassignmentRequest targets lead).validate with
      | .error e => .error e
      | .ok request =>
        match prepareDispatch env call.subject request call.idempotencyKey call.reassignment with
        | .ok p => .ok (p.replacement call.workObjectId)
        | .error e => .error e
  | _ => .ok ⟨none, none⟩

structure Prepared where
  legacy : Option Relation
  replacement : Replacement
  deriving DecidableEq

def prepareCommand (member : Membership) (root : Root) : Except DispatchError Prepared := do
  let scope := scopeOf call.subject (some call.fresh)
  let legacy ← legacyConversion env root scope call.fresh
  checkAssignee call.command member call.fresh
  let replacement ← prepareReplacement env call root
  pure ⟨legacy, replacement⟩

def CommandCall.submission (prepared : Prepared) : Submission where
  workObjectId := call.workObjectId
  scope := scopeOf call.subject (some call.fresh)
  command := call.command
  expectedEtag := call.ifMatch
  idempotencyKey := call.idempotencyKey
  requestFingerprint := env.commandFingerprint call.command
  eventId := call.eventId
  now := call.now
  replacementRelations := prepared.replacement.relations
  replacementDepartmentName := prepared.replacement.departmentName
  legacyConversionRelation := prepared.legacy
  clock := call.clock.later 5
  newRelationId := call.newRelationId
  newAttachmentId := call.newAttachmentId

/-- `get_lifecycle_event_for_scope`: whether the key was used before. -/
def existingEvent (stored : Option Task) : Except DispatchError Bool := do
  let scope := scopeOf call.subject (some call.fresh)
  let task ← loadManualRoot scope (call.clock.reading 1) stored
  match task.events.find? fun e => e.tenantId == scope.tenantId &&
      e.actorAiUserId == scope.aiUserId && e.idempotencyKey == call.idempotencyKey with
  | none => pure false
  | some e =>
    if eventVisible scope (call.clock.reading 2) task e then do
      recheckScope scope (call.clock.reading 3)
      pure true
    else pure false

/-- A transaction of the store. Every error of the database is reported as
`failed`: a violated constraint, which leaves nothing behind, and a lost
connection, after which the transaction may have been committed. -/
def transaction {α : Type} (ack : Ack) (failed : DispatchError) (tx : World → Tx (α × World)) :
    Prog World DispatchError α :=
  transact ack failed failed (fun _ => true) fun w => (tx w).run checkRow failed

def commandLifecycleForPrincipal (ack : Ack) : Prog World DispatchError MutationResult := do
  let scope := scopeOf call.subject (some call.fresh)
  let member ← Prog.ofExcept (memberOf call.subject call.fresh)
  let stored ← Prog.read fun w => w.tasks call.workObjectId
  let task ← Prog.ofExcept (loadManualRoot scope (call.clock.reading 0) stored)
  let prepared ← Prog.ofExcept (prepareCommand env call member task.root)
  let again ← Prog.read fun w => w.tasks call.workObjectId
  let existing ← Prog.ofExcept (existingEvent call again)
  Prog.require (existing ∨ call.audited) .workObjectAuditUnavailable
  Prog.ofExcept (call.fresh.recheck (call.clock.reading 4))
  transaction ack .workObjectLifecycleFailed fun w => w.command env (call.submission env prepared)

end

/-! ## Dispatch requests -/

/-- A dispatch request, with all it gets from outside the store. -/
structure DispatchCall where
  subject : Subject
  request : DispatchRequest
  idempotencyKey : Uuid
  preparation : Preparation
  audited : Bool
  replayDirectory : Option FreshDirectory
  draws : Draws

/-- `_replay_receipt`: a stale directory only costs the authority it gives. -/
def replayForPrincipal (env : Env) (call : DispatchCall) (receipt : Receipt) :
    Prog World DispatchError DispatchResult := do
  let tried ← Prog.read fun w =>
    w.replayReceipt env receipt (scopeOf call.subject call.replayDirectory) call.draws.clock
  match tried with
  | .error .organizationDirectoryStale => do
    let result ← Prog.read fun w =>
      w.replayReceipt env receipt (scopeOf call.subject none) call.draws.clock
    Prog.ofExcept result
  | result => Prog.ofExcept result

/-- The answer to a request whose key has a receipt. -/
def answerReceipt (env : Env) (call : DispatchCall) (receipt : Receipt) :
    Prog World DispatchError DispatchResult := do
  Prog.require (receipt.requestFingerprint = env.requestFingerprint call.request)
    .idempotencyKeyReused
  replayForPrincipal env call receipt

def dispatchForPrincipal (env : Env) (call : DispatchCall) (ack : Ack) :
    Prog World DispatchError DispatchResult := do
  let receiptOf := fun w : World =>
    w.receipt call.subject.tenantId call.subject.aiUserId call.idempotencyKey
  let found ← Prog.read receiptOf
  match found with
  | some receipt => answerReceipt env call receipt
  | none => do
    let prepared ← Prog.ofExcept
      (prepareDispatch env call.subject call.request call.idempotencyKey call.preparation)
    if call.audited then
      transaction ack .workObjectDispatchFailed fun w => w.insertPrepared env prepared call.draws
    else do
      -- Without an audit record only a request that already committed is answered.
      let winner ← Prog.read receiptOf
      match winner with
      | some receipt => answerReceipt env call receipt
      | none => .raise .workObjectAuditUnavailable

/-! ## Clients -/

inductive ClientCall where
  | dispatch (call : DispatchCall)
  | command (call : CommandCall)
  | files (sub : FileSubmission)
  | remark (sub : RemarkSubmission)

/-- The procedure that serves a request, with what becomes of its commit. -/
def ClientCall.program (env : Env) (ack : Ack) : ClientCall → Prog World DispatchError Unit
  | .dispatch call => (dispatchForPrincipal env call ack).discard
  | .command call => (commandLifecycleForPrincipal env call ack).discard
  | .files sub =>
    (transaction ack .workObjectStoreUnavailable fun w => w.mutateFiles env sub).discard
  | .remark sub =>
    (transaction ack .workObjectStoreUnavailable fun w => w.editRemark env sub).discard

/-- What else happens to the store: a file is uploaded, which belongs to no
task yet. -/
def Uploaded (w w' : World) : Prop :=
  ∃ file : Attachment, file.workObjectId = none ∧ w' = { w with files := w.files ++ [file] }

/-- A store in which all tasks stem from before the current model: rows that
the database and the validator accept, without relations. -/
def Legacy (w : World) : Prop :=
  ∀ id task, w.tasks id = some task → task.root.workObjectId = id ∧
    task.root.dispatchModelVersion = none ∧ task.root.check ∧ task.root.Reloads ∧
    task.relations = []

/-- Interleavings of any requests of clients, from a store of legacy tasks. Any
commit may go unanswered, and a process that dies leaves the store as it is. -/
def ServiceRun (env : Env) (calls : ClientCall → Prop) : List World → Procs World DispatchError →
    Prop :=
  PoolRun Legacy Uploaded (fun _ p => ∃ call ack, calls call ∧ p = call.program env ack)
    fun _ w => w

end EternalAI.Dispatch
