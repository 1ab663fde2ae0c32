import EternalAI.Dispatch.Access
import EternalAI.Dispatch.Schema
import EternalAI.Lib.Script
import Mathlib.Algebra.GroupWithZero.Nat

/-!
# Dispatched tasks — the lifecycle transaction

`command_dispatch_lifecycle` of
`app/infra/persistence/work_object/postgresql.py` and what it calls. It runs in
one transaction that holds the lock on the row of the task, so it is one
function from the stored task to the next one; the rows it writes on the way
are recorded for the database to check.

The order of the steps is the source's: load and authorise, project the view,
look for an earlier use of the idempotency key, refuse a finished task, compare
the entity tag, convert a legacy row, choose the relation and check that the
command is on offer, carry it out, and write row and event.

* `Submission` — the arguments of one call.
* `handleRelation`, `handleRoot` — the two halves of the large `if`.
* `commandTask` — the transaction on one task.
-/

namespace EternalAI.Dispatch

open Lib Script

inductive AttachmentPurpose where
  | taskMaterial | result
  deriving DecidableEq, Repr

/-- A row of `work_object_attachments`, without the file itself. -/
structure Attachment where
  attachmentId : Uuid
  (tenantId ownerAiUserId : Str)
  workObjectId : Option Str
  handlingRelationId : Option Uuid
  purpose : AttachmentPurpose
  visibility : Visibility
  (sizeBytes version : Nat)
  createdAt : Time
  (linkedAt detachedAt : Option Time)
  deriving DecidableEq, Repr

/-- The arguments of one call of `command_dispatch_lifecycle`, with the ids and
clock readings it draws. -/
structure Submission where
  workObjectId : Str
  scope : Scope
  command : LifecycleCommand
  expectedEtag : String
  idempotencyKey : Uuid
  requestFingerprint : String
  eventId : Uuid
  now : Time
  replacementRelations : Option (List Relation)
  replacementDepartmentName : Option Str
  legacyConversionRelation : Option Relation
  clock : Clock
  newRelationId : Uuid
  newAttachmentId : Nat → Uuid

/-- `LifecycleMutationResult`. -/
structure MutationResult where
  event : Event
  replayed : Bool
  deriving DecidableEq

abbrev Tx (α : Type) := Script Row DispatchError α

/-! ## Relations -/

section

variable (now : Time) (r : Relation) (table : List Relation)

/-- `insert_relation_in_session`: `relation_id` is a primary key. -/
def insertRelation : Tx (List Relation) := do
  Script.require (∀ x ∈ table, x.relationId ≠ r.relationId) .workObjectLifecycleFailed
  Script.write (.relation r)
  pure (table ++ [r])

def insertRelations (rs : List Relation) (table : List Relation) : Tx (List Relation) :=
  foldScript (fun table r => insertRelation r table) rs table

/-- The columns of a stored relation that an update replaces. -/
def Relation.overwrite (stored r : Relation) : Relation :=
  { r with
    relationId := stored.relationId
    tenantId := stored.tenantId
    workObjectId := stored.workObjectId
    createdAt := stored.createdAt }

/-- `update_relation_in_session`. -/
def updateRelation : Tx (List Relation) :=
  updateWhere (·.relationId = r.relationId) (·.overwrite r) .relation table

def Relation.superseded : Relation :=
  { r with supersededAt := some now, updatedAt := now }

def supersedeRelation (now : Time) (table : List Relation) : Tx (List Relation) :=
  updateWhere (·.relationId = r.relationId) (·.superseded now) .relation table

def supersedeRelations (rs : List Relation) (now : Time) (table : List Relation) :
    Tx (List Relation) :=
  foldScript (fun table r => supersedeRelation r now table) rs table

def Relation.cleared : Relation :=
  { r with
    submittedAt := none
    submittedByAiUserId := none
    submittedResult := none
    reviewedAt := none
    reviewedByAiUserId := none
    reviewResult := none
    reviewReason := none }

def Relation.invalidated : Relation :=
  { r.cleared with
    status := if r.acceptedAt.isSome then .inProgress else .assigned
    updatedAt := now }

end

def invalidateSubmissions (relations : List Relation) (now : Time) (table : List Relation) :
    Tx (List Relation) :=
  foldScript (fun table r => updateRelation (r.invalidated now) table)
    (relations.filter (·.status.handedIn)) table

/-! ## Attachments -/

def maxAttachmentsPerRequest : Nat := 10

def maxTaskAttachmentBytes : Nat := 100 * 1024 * 1024

/-- What `link_attachments_in_session` is asked for. -/
structure LinkRequest where
  workObjectId : Str
  handlingRelationId : Option Uuid
  attachmentIds : List Uuid
  purpose : AttachmentPurpose
  visibility : Visibility
  now : Time

def LinkRequest.checkRelation (q : LinkRequest) (table : List Relation) :
    Except DispatchError Unit :=
  match q.handlingRelationId with
  | none =>
    if q.visibility = .departmentInternal then .error .workObjectAttachmentInvalid else .ok ()
  | some id =>
    match (current table).find? (·.relationId = id) with
    | none => .error .workObjectActionForbidden
    | some r =>
      if q.purpose = .result ∧ r.targetKind = .department ∧ q.visibility ≠ .departmentInternal then
        .error .workObjectActionForbidden
      else .ok ()

section

variable (q : LinkRequest) (scope : Scope)

/-- A row that may be linked: an upload of the actor, or a file that already is
where it is to be linked. -/
def LinkRequest.source (id : Uuid) (a : Attachment) : Bool :=
  a.tenantId == scope.tenantId && a.attachmentId == id && a.detachedAt.isNone &&
    a.purpose == q.purpose &&
    ((a.workObjectId.isNone && a.ownerAiUserId == scope.aiUserId) ||
      (a.workObjectId == some q.workObjectId && a.handlingRelationId == q.handlingRelationId))

def LinkRequest.sources (q : LinkRequest) (scope : Scope) (files : List Attachment) :
    List Uuid → Except DispatchError (List Attachment)
  | [] => .ok []
  | id :: ids =>
    match files.find? (q.source scope id), q.sources scope files ids with
    | some a, .ok rest => .ok (a :: rest)
    | some _, .error e => .error e
    | none, _ => .error .workObjectAttachmentInvalid

/-- The bytes of a task's files that are not detached. -/
def taskBytes (tenantId workObjectId : Str) (files : List Attachment) : Nat :=
  ((files.filter fun a => a.tenantId == tenantId && a.workObjectId == some workObjectId &&
    a.detachedAt.isNone).map (·.sizeBytes)).sum

/-- One link: an upload is copied into the task, a file of the task is linked
anew. -/
def LinkRequest.linkOne (newId : Uuid) (source : Attachment) (files : List Attachment) :
    List Attachment :=
  if source.workObjectId.isSome then
    files.map fun a =>
      if a.tenantId = source.tenantId ∧ a.workObjectId = some q.workObjectId ∧
          a.attachmentId = source.attachmentId then
        { a with linkedAt := some q.now, version := a.version + 1 }
      else a
  else
    files ++ [{ source with
      attachmentId := newId
      workObjectId := some q.workObjectId
      handlingRelationId := q.handlingRelationId
      purpose := q.purpose
      visibility := q.visibility
      version := 1
      createdAt := q.now
      linkedAt := some q.now
      detachedAt := none }]

def LinkRequest.linkAll (q : LinkRequest) (newId : Nat → Uuid) :
    List Attachment → Nat → List Attachment → List Attachment
  | [], _, files => files
  | source :: rest, n, files => q.linkAll newId rest (n + 1) (q.linkOne (newId n) source files)

def LinkRequest.checkLimits (files sources : List Attachment) : Except DispatchError Unit :=
  if maxTaskAttachmentBytes < taskBytes scope.tenantId q.workObjectId files +
      ((sources.filter (·.workObjectId.isNone)).map (·.sizeBytes)).sum then
    .error .workObjectAttachmentLimitExceeded
  else .ok ()

/-- `link_attachments_in_session`, with the readings of its two checks of the
scope. -/
def linkAttachments (early late : Tick) (newId : Nat → Uuid) (table : List Relation)
    (files : List Attachment) : Except DispatchError (List Attachment) := do
  recheckScope scope early
  if q.attachmentIds.length > maxAttachmentsPerRequest ∨ ¬ q.attachmentIds.Nodup then
    .error .workObjectAttachmentLimitExceeded
  else do
    q.checkRelation table
    let sources ← q.sources scope files q.attachmentIds
    q.checkLimits scope files sources
    recheckScope scope late
    pure (q.linkAll newId sources 0 files)

/-- `publish_relation_results_in_session`. -/
def publishRelationResults (now : Tick) (workObjectId : Str) (relationId : Uuid)
    (table : List Relation) (files : List Attachment) : Except DispatchError (List Attachment) := do
  recheckScope scope now
  pure (files.map fun a =>
    if a.tenantId = scope.tenantId ∧ a.workObjectId = some workObjectId ∧
        a.handlingRelationId = some relationId ∧ a.purpose = .result ∧ a.detachedAt = none ∧
        a.visibility = .departmentInternal ∧ a.linkedAt.isSome ∧
        (current table).any (fun r => r.relationId = relationId ∧ r.submittedAt = a.linkedAt) then
      { a with visibility := .shared, version := a.version + 1 }
    else a)

end

/-! ## Commands on a relation -/

/-- The relation that replaces one whose head assigns it to somebody. -/
def Relation.assignedTo (id : Uuid) (directoryUserId : Str) (now : Time) (r : Relation) :
    Relation :=
  { r.cleared with
    relationId := id
    assigneeDirectoryUserId := some directoryUserId
    assigneeAiUserId := none
    status := .assigned
    acceptedAt := none
    acceptedByAiUserId := none
    createdAt := now
    updatedAt := now }

def Relation.acceptedBy (aiUserId : Str) (now : Time) (r : Relation) : Relation :=
  { r with
    status := .inProgress
    acceptedAt := some now
    acceptedByAiUserId := some aiUserId
    assigneeAiUserId := some aiUserId
    updatedAt := now }

/-- A submission: a department's goes to its head first. -/
def Relation.submittedBy (aiUserId text : Str) (now : Time) (r : Relation) : Relation :=
  { r with
    status := if r.targetKind = .department then .awaitingDepartmentReview else .submitted
    submittedAt := some now
    submittedByAiUserId := some aiUserId
    submittedResult := some text
    reviewedAt := none
    reviewedByAiUserId := none
    reviewResult := none
    reviewReason := none
    updatedAt := now }

/-- A review by the head: a rejected submission is taken back. -/
def Relation.reviewedBy (aiUserId : Str) (approved : Bool) (reason : Str) (now : Time)
    (r : Relation) : Relation :=
  { r with
    status := if approved then .submitted else .inProgress
    reviewedAt := some now
    reviewedByAiUserId := some aiUserId
    reviewResult := some approved
    reviewReason := some reason
    submittedAt := if approved then r.submittedAt else none
    submittedByAiUserId := if approved then r.submittedByAiUserId else none
    submittedResult := if approved then r.submittedResult else none
    updatedAt := now }

def Submission.changed (sub : Submission) (r : Relation) : Relation :=
  match sub.command with
  | .assign _ user => r.assignedTo sub.newRelationId user.val sub.now
  | .accept _ => r.acceptedBy sub.scope.aiUserId sub.now
  | .submit _ text _ => r.submittedBy sub.scope.aiUserId text.val sub.now
  | .complete text => r.submittedBy sub.scope.aiUserId text.val sub.now
  | .departmentReview _ approved reason _ =>
    r.reviewedBy sub.scope.aiUserId approved reason.val sub.now
  | _ => { r with updatedAt := sub.now }

def strJson (s : Str) : Json := .str (String.ofList s)

def idJson (id : Uuid) : Json := .str (toString id)

def modeJson : CompletionMode → Json
  | .submitCompletes => .str "submit_completes"
  | .confirmRequired => .str "confirm_required"

def LifecycleCommand.eventText : LifecycleCommand → Option Str
  | .departmentReview _ _ reason _ => if reason.val = [] then none else some reason.val
  | .returnTask reason => some reason.val
  | .withdraw reason => some reason.val
  | command => command.text

def LifecycleCommand.relationVisibility (command : LifecycleCommand) (r : Relation) : Visibility :=
  match command with
  | .submit _ _ _ | .complete _ =>
    if r.targetKind = .department then .departmentInternal else .shared
  | _ => .departmentInternal

def LifecycleCommand.relationPayload (command : LifecycleCommand) (old new : Relation) : Json :=
  match command with
  | .assign _ _ => .obj [("previous_relation_id", idJson old.relationId),
      ("replacement_relation_id", idJson new.relationId)]
  | .departmentReview _ approved _ _ => .obj [("approved", .bool approved)]
  | _ => .obj []

def finalSubmissionStatus (root : Root) : LifecycleStatus :=
  if root.completionMode = some .submitCompletes then .completed else .awaitingAcceptance

/-- The status of an independent task after a command on its relation. -/
def independentStatus (root : Root) (only : Relation) : LifecycleStatus :=
  match only.status with
  | .submitted => finalSubmissionStatus root
  | .awaitingDepartmentReview => .awaitingDepartmentReview
  | .assigned => if only.targetKind = .user then .assigned else .inProgress
  | .departmentPending => .departmentPending
  | .inProgress => .inProgress

/-- The status of a collaborative task after a command on one of its relations. -/
def collaborativeStatus (lead : Relation) : LifecycleStatus :=
  if lead.status = .awaitingDepartmentReview then .awaitingDepartmentReview else .inProgress

/-- The status of the task after a command on one of its relations. -/
def statusAfterRelation (root : Root) (relations : List Relation) :
    Except DispatchError LifecycleStatus :=
  if root.dispatchMode = some .independent then
    match relations with
    | only :: _ => .ok (independentStatus root only)
    | [] => .error .stopIteration
  else
    match relations.find? (·.role == .lead) with
    | some lead => .ok (collaborativeStatus lead)
    | none => .error .stopIteration

/-- What carrying out a command leaves behind, before the row and the event
are written. `status` is the new status if there is one. -/
structure Outcome where
  table : List Relation
  files : List Attachment
  root : Root
  status : Option LifecycleStatus
  eventRelation : Option Relation
  visibility : Visibility
  text : Option Str
  payload : Json

/-- A task as the transaction has loaded it: its row, the relations that the
actor gets to see of it, and the stored ones. -/
structure Loaded where
  root : Root
  (relations table : List Relation)

section

variable (sub : Submission) (loaded : Loaded) (files : List Attachment)

/-- The relation table after a command on a relation: an assignment supersedes
the relation and inserts its replacement, every other command updates it. -/
def changeRelation (r : Relation) (table : List Relation) : Tx (List Relation) :=
  match sub.command with
  | .assign _ _ => do
    Script.require (r.targetKind = .department ∧ relationHeadAllowed r sub.scope)
      .workObjectActionForbidden
    -- Supersession revokes the access of the previous actor in the same transaction.
    let superseded ← supersedeRelation r sub.now table
    insertRelation (sub.changed r) superseded
  | _ => updateRelation (sub.changed r) table

def publishApproved (r : Relation) (table : List Relation) (files : List Attachment) :
    Except DispatchError (List Attachment) :=
  match sub.command with
  | .departmentReview _ true _ _ =>
    publishRelationResults sub.scope (sub.clock.reading 4) sub.workObjectId r.relationId table files
  | _ => .ok files

def linkSubmitted (relationId : Option Uuid) (visibility : Visibility) (table : List Relation)
    (files : List Attachment) : Except DispatchError (List Attachment) :=
  if sub.command.attachmentIds = [] then .ok files
  else
    linkAttachments
      { workObjectId := sub.workObjectId
        handlingRelationId := relationId
        attachmentIds := sub.command.attachmentIds
        purpose := .result
        visibility := visibility
        now := sub.now }
      sub.scope (sub.clock.reading 5) (sub.clock.reading 6) sub.newAttachmentId table files

/-- An assignment while the result awaits acceptance takes all submissions
back; the relations are then loaded anew. -/
def reopen (root : Root) (changed table : List Relation) : Tx (List Relation × List Relation) :=
  if sub.command.operation = .assign ∧ root.status = .awaitingAcceptance then do
    let invalidated ← invalidateSubmissions changed sub.now table
    pure (loadRelations sub.scope (sub.clock.reading 7) invalidated, invalidated)
  else pure (changed, table)

/-- The row after the acceptance of a relation: the first one is recorded. -/
def Submission.acceptRoot (root : Root) : Root :=
  match sub.command with
  | .accept _ =>
    if root.acceptedAt.isNone then
      { root with
        acceptedAt := some sub.now
        acceptedByAiUserId := some sub.scope.aiUserId }
    else root
  | _ => root

def replaceRelation (relations : List Relation) (r new : Relation) : List Relation :=
  relations.map fun x => if x.relationId = r.relationId then new else x

/-- The branch of the transaction for commands on a relation. -/
def handleRelation (r : Relation) (files : List Attachment) : Tx Outcome := do
  let published ← Script.ofExcept (publishApproved sub r loaded.table files)
  let table ← changeRelation sub r loaded.table
  let new := sub.changed r
  let changed := replaceRelation loaded.relations r new
  let visibility := sub.command.relationVisibility r
  let linked ← Script.ofExcept
    (linkSubmitted sub (some new.relationId) visibility table published)
  let reopened ← reopen sub loaded.root changed table
  let status ← Script.ofExcept (statusAfterRelation loaded.root reopened.1)
  pure {
    table := reopened.2
    files := linked
    root := sub.acceptRoot loaded.root
    status := some status
    eventRelation := some new
    visibility := visibility
    text := sub.command.eventText
    payload := sub.command.relationPayload r new }

/-! ## Commands on the task -/

/-- The parts of a row that a revision may change, as the event shows them. -/
def revisionJson (title requirement receiptRequirement : Str) (mode : Json) : Json :=
  .obj [("title", strJson title), ("requirement", strJson requirement),
    ("receipt_requirement", strJson receiptRequirement), ("completion_mode", mode)]

def Root.reassignedTo (lead : Relation) (departmentName : Option Str) (root : Root) : Root :=
  { root with
    targetKind := lead.targetKind
    ownerDepartmentId := lead.targetDepartmentId
    assigneeDirectoryUserId := lead.targetDirectoryUserId
    assigneeDisplayName := if lead.targetKind = .user then none else departmentName
    acceptedAt := none
    acceptedByAiUserId := none }

/-- An outcome that keeps everything but the status. -/
def Loaded.outcome (sub : Submission) (files : List Attachment) (status : Option LifecycleStatus)
    (payload : Json) : Outcome where
  table := loaded.table
  files := files
  root := loaded.root
  status := status
  eventRelation := none
  visibility := .shared
  text := sub.command.eventText
  payload := payload

def handleSummary : Tx Outcome := do
  Script.require (loaded.root.dispatchMode = some .collaborative ∧
    ∀ r ∈ loaded.relations, r.status = .submitted) .workObjectTransitionInvalid
  let linked ← Script.ofExcept (linkSubmitted sub none .shared loaded.table files)
  pure (loaded.outcome sub linked (some (finalSubmissionStatus loaded.root))
    (.obj [("submitted_relation_ids",
      .arr (loaded.relations.map fun r => idJson r.relationId))]))

def handleReturn : Tx Outcome := do
  let table ← invalidateSubmissions loaded.relations sub.now loaded.table
  pure { loaded.outcome sub files (some .inProgress) (.obj []) with table := table }

def handleRevise (title requirement receiptRequirement : Str) (mode : CompletionMode) :
    Tx Outcome := do
  let table ← invalidateSubmissions loaded.relations sub.now loaded.table
  let root := loaded.root
  let status := if root.status = .awaitingAcceptance ∨ root.status = .awaitingDepartmentReview
    then some .inProgress else none
  let payload := Json.obj
    [("before", revisionJson root.title root.requirement root.receiptRequirement
        (Json.ofOption modeJson root.completionMode)),
      ("after", revisionJson title requirement receiptRequirement (modeJson mode))]
  pure { loaded.outcome sub files status payload with
    table := table
    root := { root with
      title := title
      requirement := requirement
      receiptRequirement := receiptRequirement
      completionMode := some mode } }

def handleWithdraw : Outcome :=
  { loaded.outcome sub files (some .withdrawn) (.obj []) with
    root := { loaded.root with
      withdrawnAt := some sub.now
      withdrawnByAiUserId := some sub.scope.aiUserId } }

def handleExtend (dueAt : Time) : Tx Outcome := do
  Script.require (∀ due ∈ loaded.root.dueAt, due < dueAt) .workObjectTransitionInvalid
  pure { loaded.outcome sub files none
      (.obj [("before_due_at", Json.ofOption .int loaded.root.dueAt),
        ("after_due_at", .int dueAt)]) with
    root := { loaded.root with dueAt := some dueAt } }

/-- `next(r for r in replacement_relations if r.role in {"single", "lead"})`. -/
def principalRelation (relations : List Relation) : Option Relation :=
  relations.find? fun r => r.role == .single || r.role == .lead

/-- The status of a task that was just handed to a target. -/
def initialStatus (kind : TargetKind) : LifecycleStatus :=
  match kind with
  | .user => .assigned
  | .department => .departmentPending

def handleReassign : Tx Outcome :=
  match sub.replacementRelations with
  | none | some [] => .raise .workObjectLifecycleRequestInvalid
  | some replacements => do
    let superseded ← supersedeRelations loaded.relations sub.now loaded.table
    let table ← insertRelations replacements superseded
    match principalRelation replacements with
    | none => .raise .stopIteration
    | some lead => do
      Script.require (lead.targetKind = .user ∨ sub.replacementDepartmentName.isSome)
        .dispatchTargetDepartmentMissing
      pure { loaded.outcome sub files (some (initialStatus lead.targetKind))
          (.obj [("previous_relation_ids",
              .arr (loaded.relations.map fun r => idJson r.relationId)),
            ("replacement_relation_ids", .arr (replacements.map fun r => idJson r.relationId))])
        with
        table := table
        root := loaded.root.reassignedTo lead sub.replacementDepartmentName }

/-- The branch of the transaction for commands on the task as a whole. -/
def handleRoot : Tx Outcome :=
  match sub.command with
  | .submitSummary _ _ => handleSummary sub loaded files
  | .confirm => pure (loaded.outcome sub files (some .completed) (.obj []))
  | .returnTask _ => handleReturn sub loaded files
  | .revise title requirement receipt mode =>
    handleRevise sub loaded files title.val requirement.val receipt.val mode
  | .withdraw _ => pure (handleWithdraw sub loaded files)
  | .extend dueAt => handleExtend sub loaded files dueAt
  | .reassign _ _ => handleReassign sub loaded files
  -- Without a relation no other command is on offer.
  | _ => .raise .workObjectActionForbidden

/-! ## The transaction -/

/-- The event under the idempotency key, if the actor has used it on this task. -/
def priorEvent (task : Task) : Option Event :=
  task.events.find? fun e => e.tenantId == sub.scope.tenantId &&
    e.actorAiUserId == sub.scope.aiUserId && e.idempotencyKey == sub.idempotencyKey

end

section

variable (env : Env) (sub : Submission) (task : Task)

/-- The answer to a key that was used before. -/
def replay (prior : Event) : Except DispatchError MutationResult :=
  if prior.requestFingerprint ≠ sub.requestFingerprint then .error .idempotencyKeyReused
  else if eventVisible sub.scope (sub.clock.reading 3) task prior then .ok ⟨prior, true⟩
  else .error .workObjectActionForbidden

def Root.converted (root : Root) : Root :=
  { root with
    dispatchModelVersion := some 2
    dispatchMode := some .independent
    completionMode := some .submitCompletes }

/-- `convert_legacy_in_session`. -/
def convertLegacy : Tx Loaded :=
  match sub.legacyConversionRelation.or (legacyRelationForScope env task.root sub.scope) with
  | none => .raise .workObjectLegacyConversionBlocked
  | some relation => do
    let table ← insertRelation relation task.relations
    Script.write (.root task.root.converted)
    pure { root := task.root.converted, relations := [relation], table := table }

/-- The task that the command works on: a legacy row is converted first. -/
def prepare : Tx Loaded :=
  if task.root.dispatchModelVersion.isNone then convertLegacy env sub task
  else pure {
    root := task.root
    relations := loadRelations sub.scope (sub.clock.reading 2) task.relations
    table := task.relations }

/-- The relation that a command is about, and the operation it stands for: a
`complete` is the submission of an unambiguous personal task. -/
def selectRelation (command : LifecycleCommand) (relations : List Relation) :
    Except DispatchError (Option Relation × LifecycleOperation) :=
  match command with
  | .complete _ =>
    match relations with
    | [r] => if r.targetKind = .user then .ok (some r, .submit)
      else .error .workObjectTransitionInvalid
    | _ => .error .workObjectTransitionInvalid
  | _ =>
    match command.handlingRelationId with
    | none => .ok (none, command.operation)
    | some id =>
      match relations.find? (·.relationId = id) with
      | some r => .ok (some r, command.operation)
      | none => .error .workObjectActionForbidden

/-- The commands that are on offer for the relation, or for the task. -/
def offered (loaded : Loaded) (relation : Option Relation) : List LifecycleOperation :=
  match relation with
  | some r => relationActions r sub.scope false
  | none => (projectLifecycle loaded.root loaded.relations sub.scope).availableCommands

def Outcome.finalRoot (outcome : Outcome) (sub : Submission) (before : Root) : Root :=
  { outcome.root with
    version := before.version + 1
    updatedAt := sub.now
    status := outcome.status.getD before.status
    completedAt := if outcome.status = some .completed then some sub.now
      else outcome.root.completedAt
    completedByAiUserId := if outcome.status = some .completed then some sub.scope.aiUserId
      else outcome.root.completedByAiUserId }

def Outcome.event (outcome : Outcome) (sub : Submission) (before : Root)
    (relation : Option Relation) : Event where
  eventId := sub.eventId
  workObjectId := sub.workObjectId
  tenantId := sub.scope.tenantId
  actorAiUserId := sub.scope.aiUserId
  operation := sub.command.operation
  idempotencyKey := sub.idempotencyKey
  requestFingerprint := sub.requestFingerprint
  fromStatus := before.status
  toStatus := outcome.status.getD before.status
  resultVersion := before.version + 1
  occurredAt := sub.now
  text := outcome.text
  eventModelVersion := some 2
  handlingRelationId := outcome.eventRelation.map (·.relationId)
  relationFromStatus := relation.map (·.status)
  relationToStatus := outcome.eventRelation.map (·.status)
  payload := some outcome.payload
  visibility := some outcome.visibility

/-- A command carried out on the relation that was selected, or on the task. -/
def handle (loaded : Loaded) (relation : Option Relation) (files : List Attachment) : Tx Outcome :=
  match relation with
  | some r => handleRelation sub loaded r files
  | none => handleRoot sub loaded files

/-- The part of the transaction after the entity tag was compared. -/
def mutate (files : List Attachment) : Tx (MutationResult × Task × List Attachment) := do
  let loaded ← prepare env sub task
  let selected ← Script.ofExcept (selectRelation sub.command loaded.relations)
  Script.require (selected.2 ∈ offered sub loaded selected.1) .workObjectActionForbidden
  let outcome ← handle sub loaded selected.1 files
  Script.ofExcept (recheckScope sub.scope (sub.clock.reading 8))
  let root := outcome.finalRoot sub loaded.root
  let event := outcome.event sub loaded.root selected.1
  Script.write (.root root)
  Script.write (.event event)
  pure (⟨event, false⟩,
    { task with root := root, relations := outcome.table, events := task.events ++ [event] },
    outcome.files)

def checkAdmission : Except DispatchError Unit :=
  let view := projectLifecycle task.root
    (viewRelations env sub.scope (sub.clock.reading 2) task) sub.scope
  if view.frozen then .error .workObjectTransitionInvalid
  else checkEtag sub.expectedEtag (view.etag env)

/-- `command_dispatch_lifecycle` on what is stored under the id. -/
def commandTask (stored : Option Task) (files : List Attachment) :
    Tx (MutationResult × Task × List Attachment) := do
  let task ← Script.ofExcept (loadManualRoot sub.scope (sub.clock.reading 0) stored)
  Script.ofExcept (recheckScope sub.scope (sub.clock.reading 1))
  match priorEvent sub task with
  | some prior => do
    let result ← Script.ofExcept (replay sub task prior)
    pure (result, task, files)
  | none => do
    Script.ofExcept (checkAdmission env sub task)
    mutate env sub task files

end

end EternalAI.Dispatch
