import EternalAI.Dispatch.Model

/-!
# Dispatched tasks — who sees what, and the lifecycle view

`app/infra/persistence/work_object/authorization.py`, the role predicates of
`app/ports/work_object_lifecycle.py`, and the loading functions of
`app/infra/persistence/work_object/postgresql.py`.

Two predicates decide access to a relation: `participant` is the SQL one and
looks at the clock, `relationPrivateAllowed` is the Python one and does not.
Loading masks the private columns of a relation by the first; commands are
offered by the second.

* `loadManualRoot`, `loadRelations` — what a transaction reads first.
* `projectLifecycle`, `LifecycleView.etag` — the view of an actor and its tag.
-/

namespace EternalAI.Dispatch

open Lib

/-- A row of `work_object_remarks`. -/
structure Remark where
  text : Str
  version : Nat
  updatedBy : Str
  updatedAt : Time
  deriving DecidableEq, Repr

/-- A row of `work_object_remark_history`. -/
structure RemarkEntry where
  remark : Remark
  idempotencyKey : Uuid
  requestFingerprint : String
  deriving DecidableEq, Repr

/-- A task: its row, all its handling relations (superseded ones included), its
events, and its remark with the history. -/
structure Task where
  root : Root
  relations : List Relation
  events : List Event
  remark : Option Remark
  remarkHistory : List RemarkEntry
  deriving DecidableEq

/-! ## Authorisation in SQL -/

section

variable (r : Relation) (scope : Scope) (now : Tick)

def recheckScope : Except DispatchError Unit :=
  if scope.validUntil.any (· < now) then .error .organizationDirectoryStale else .ok ()

/-- The departments that `scope_parameters` passes on. -/
def Scope.responsibleAt : List Str :=
  if scope.validUntil.any (now ≤ ·) then scope.responsibleDepartmentIds else []

/-- Equality of two columns, either of which may be null. -/
def sqlEq (a b : Option Str) : Bool := a.isSome && a == b

/-- `relation_participant_sql`. -/
def participant (r : Relation) : Bool :=
  r.supersededAt.isNone &&
    (r.assigneeAiUserId == some scope.aiUserId ||
      sqlEq r.assigneeDirectoryUserId scope.directoryUserId ||
      (r.targetKind == .user && sqlEq r.targetDirectoryUserId scope.directoryUserId) ||
      (r.targetKind == .department && r.targetDepartmentId ∈ scope.responsibleAt now))

/-- `root_visibility_sql`. -/
def rootVisible (task : Task) : Bool :=
  task.root.tenantId == scope.tenantId &&
    (task.root.initiatorAiUserId == scope.aiUserId ||
      task.relations.any (participant scope now) ||
      (task.root.dispatchModelVersion.isNone &&
        (task.root.assigneeAiUserId == some scope.aiUserId ||
          task.root.acceptedByAiUserId == some scope.aiUserId ||
          sqlEq task.root.assigneeDirectoryUserId scope.directoryUserId)))

/-- `event_visible_in_session`: the task is visible, and the event is shared or
belongs to a relation the actor still takes part in. -/
def eventVisible (task : Task) (e : Event) : Bool :=
  let shared := (e.eventModelVersion.isNone && (e.operation == .complete ||
      (task.root.dispatchModelVersion.isNone && e.actorAiUserId == scope.aiUserId))) ||
    e.visibility == some .shared
  rootVisible scope now task && (shared ||
    task.relations.any fun r =>
      some r.relationId == e.handlingRelationId && participant scope now r)

/-! ## Authorisation in Python -/

/-- `a or b` on optional strings: an empty string counts as absent. -/
def orElse (a b : Option Str) : Option Str :=
  match a with
  | some (_ :: _) => a
  | _ => b

def relationActorAllowed : Bool :=
  r.supersededAt.isNone && (r.assigneeAiUserId == some scope.aiUserId ||
    (scope.directoryUserId.isSome &&
      scope.directoryUserId == orElse r.assigneeDirectoryUserId r.targetDirectoryUserId))

def relationHeadAllowed : Bool :=
  r.supersededAt.isNone && r.targetKind == .department &&
    r.targetDepartmentId ∈ scope.responsibleDepartmentIds

def relationPrivateAllowed : Bool :=
  relationActorAllowed r scope || relationHeadAllowed r scope

def headActions : List LifecycleOperation :=
  if relationHeadAllowed r scope then
    .assign :: (if r.status = .awaitingDepartmentReview then [.departmentReview] else [])
  else []

def actorActions : List LifecycleOperation :=
  if relationActorAllowed r scope then
    (if r.status = .assigned then [.accept] else []) ++
      (if r.status = .inProgress then [.feedback, .submit] else [])
  else []

def relationActions (frozen : Bool) : List LifecycleOperation :=
  if frozen then [] else headActions r scope ++ actorActions r scope

/-! ## Loading -/

/-- `load_manual_root_in_session`, on what is stored under the id. -/
def loadManualRoot (stored : Option Task) : Except DispatchError Task :=
  match stored with
  | none => .error .workObjectNotFound
  | some task =>
    if rootVisible scope now task then
      match task.root.validateDispatch with
      | .ok _ => .ok task
      | .error message => .error (.validationError message)
    else .error .workObjectNotFound

/-- The columns of a relation as the query of `load_relations_in_session`
projects them. -/
def Relation.projected (r : Relation) : Relation :=
  if participant scope now r then r
  else { r with
    submittedResult := if r.status = .submitted then r.submittedResult else none
    reviewReason := none
    reviewResult := none
    reviewedAt := none
    reviewedByAiUserId := none }

/-- `ORDER BY created_at, relation_id`. -/
def Relation.before (a b : Relation) : Bool :=
  decide (a.createdAt < b.createdAt ∨ (a.createdAt = b.createdAt ∧ a.relationId ≤ b.relationId))

/-- The relations that are not superseded. -/
def current (table : List Relation) : List Relation :=
  table.filter (·.supersededAt.isNone)

/-- `load_relations_in_session`. -/
def loadRelations (table : List Relation) : List Relation :=
  ((current table).map (·.projected scope now)).insertionSort fun a b => a.before b = true

end

/-! ## The view of an actor -/

/-- `HandlingRelationView`. -/
structure RelationView where
  relationId : Uuid
  target : TargetKind × Str × Option Str
  role : Role
  status : RelationStatus
  assigneeDirectoryUserId : Option Str
  (acceptedAt submittedAt : Option Time)
  submittedResult : Option Str
  reviewedAt : Option Time
  reviewResult : Option Bool
  reviewReason : Option Str
  availableCommands : List LifecycleOperation
  deriving DecidableEq, Repr

structure LifecycleView where
  workObjectId : Str
  status : LifecycleStatus
  version : Nat
  (acceptedAt completedAt : Option Time)
  dispatchMode : Option DispatchMode
  completionMode : Option CompletionMode
  (title requirement receiptRequirement : Str)
  dueAt : Option Time
  frozen : Bool
  relations : List RelationView
  availableCommands : List LifecycleOperation
  unavailable : Bool
  deriving DecidableEq, Repr

section

variable (env : Env) (root : Root) (scope : Scope)

/-- The part of a relation that `project_lifecycle` shows. -/
def Relation.view (frozen : Bool) (r : Relation) : RelationView :=
  let private_ := relationPrivateAllowed r scope
  let handedOver := private_ || r.status == .submitted
  { relationId := r.relationId
    target := r.target
    role := r.role
    status := r.status
    assigneeDirectoryUserId := if private_ then r.assigneeDirectoryUserId else none
    acceptedAt := if private_ then r.acceptedAt else none
    submittedAt := if handedOver then r.submittedAt else none
    submittedResult := if handedOver then r.submittedResult else none
    reviewedAt := if private_ then r.reviewedAt else none
    reviewResult := if private_ then r.reviewResult else none
    reviewReason := if private_ then r.reviewReason else none
    availableCommands := relationActions r scope frozen }

def initiatorActions : List LifecycleOperation :=
  if !root.frozen && root.initiatorAiUserId == scope.aiUserId then
    [.revise, .withdraw, .extend, .reassign] ++
      (if root.status = .awaitingAcceptance then [.confirm, .returnTask] else [])
  else []

def leadAllowed (lead : Relation) (scope : Scope) : Bool :=
  match lead.targetKind with
  | .department => relationHeadAllowed lead scope
  | .user => relationActorAllowed lead scope

def leadActions (relations : List Relation) (scope : Scope) : List LifecycleOperation :=
  if !root.frozen && root.dispatchMode == some .collaborative then
    match relations.find? (·.role == .lead) with
    | some lead =>
      if leadAllowed lead scope && relations.all (·.status == .submitted) then [.submitSummary]
      else []
    | none => []
  else []

/-- `project_lifecycle`. `unavailable` stands for the reason
`work_object_action_forbidden`. -/
def projectLifecycle (relations : List Relation) (scope : Scope) : LifecycleView :=
  let actions := initiatorActions root scope ++ leadActions root relations scope
  let views := relations.map (·.view scope root.frozen)
  { workObjectId := root.workObjectId
    status := root.status
    version := root.version
    acceptedAt := root.acceptedAt
    completedAt := root.completedAt
    dispatchMode := root.dispatchMode
    completionMode := root.completionMode
    title := root.title
    requirement := root.requirement
    receiptRequirement := root.receiptRequirement
    dueAt := root.dueAt
    frozen := root.frozen
    relations := views
    availableCommands := actions
    unavailable := !(root.frozen || !actions.isEmpty || views.any (!·.availableCommands.isEmpty)) }

/-- The functions that the code takes from outside: digests of canonical JSON,
and the name-based id of a converted relation. -/
structure Env where
  viewDigest : LifecycleView → String
  remarkDigest : Str → Option Remark → String
  commandFingerprint : LifecycleCommand → String
  requestFingerprint : DispatchRequest → String
  legacyRelationId : Str → Str → Uuid

/-- `lifecycle_etag` of the view. -/
def LifecycleView.etag (view : LifecycleView) : String :=
  "\"wolc-" ++ env.viewDigest view ++ "\""

def checkEtag (expected actual : String) : Except DispatchError Unit :=
  if expected = "" then .error .workObjectPreconditionRequired
  else if expected ≠ actual then .error .workObjectVersionConflict
  else .ok ()

/-! ## Rows from before the current model -/

/-- The record of a relation that stands for the target of a legacy row. The one
that is shown and the one that is stored take their tenant from different places
and have their status from different expressions. -/
def Root.legacyRecord (tenantId : Str) (assignee : Option Str) (status : RelationStatus) :
    Relation where
  relationId := env.legacyRelationId root.tenantId root.workObjectId
  tenantId := tenantId
  workObjectId := root.workObjectId
  targetKind := root.targetKind
  targetDepartmentId := root.ownerDepartmentId
  targetDirectoryUserId :=
    if root.targetKind = .user then root.assigneeDirectoryUserId else none
  role := .single
  assigneeDirectoryUserId := assignee
  assigneeAiUserId := root.acceptedByAiUserId
  status := status
  acceptedAt := root.acceptedAt
  acceptedByAiUserId := root.acceptedByAiUserId
  submittedAt := none
  submittedByAiUserId := none
  submittedResult := none
  reviewedAt := none
  reviewedByAiUserId := none
  reviewResult := none
  reviewReason := none
  createdAt := root.createdAt
  updatedAt := root.updatedAt
  supersededAt := none

/-- The directory identity behind a legacy row, if the actor is that person. -/
def Root.legacyAssignee : Option Str :=
  match root.targetKind with
  | .user => root.assigneeDirectoryUserId
  | .department =>
    if root.acceptedByAiUserId = some scope.aiUserId ∧
        scope.departmentId = some root.ownerDepartmentId then scope.directoryUserId
    else none

def legacyRelationForScope : Option Relation :=
  let assignee := root.legacyAssignee scope
  if assignee.any (· ≠ []) ∧ scope.directoryUserId = assignee ∧
      (root.acceptedByAiUserId = none ∨ root.acceptedByAiUserId = some scope.aiUserId) then
    some (root.legacyRecord env root.tenantId assignee
      (if root.acceptedAt.isSome then .inProgress else .assigned))
  else none

/-- The relations that a view is made of: a row that was not converted shows
its target as a relation. -/
def viewRelations (now : Tick) (task : Task) : List Relation :=
  let relations := loadRelations scope now task.relations
  if task.root.dispatchModelVersion.isNone then
    match legacyRelationForScope env task.root scope with
    | some virtual => [virtual]
    | none => relations
  else relations

/-- `load_lifecycle_view_in_session`. -/
def loadLifecycleView (early late : Tick) (stored : Option Task) :
    Except DispatchError (Task × LifecycleView) :=
  match loadManualRoot scope early stored with
  | .ok task => .ok (task, projectLifecycle task.root (viewRelations env scope late task) scope)
  | .error e => .error e

end

end EternalAI.Dispatch
