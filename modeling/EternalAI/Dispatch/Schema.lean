import EternalAI.Dispatch.Model
import EternalAI.Lib.Sql

/-!
# Dispatched tasks — the constraints of the database

The `CHECK` constraints that the migration `20261022_120000_work_dispatch_v2`
puts on the tables `work_objects`, `work_object_handling_relations` and
`work_object_lifecycle_events`, condition by condition and with SQL's treatment
of nulls. A constraint written `(…) IS TRUE` refuses an unknown condition, the
others accept it.

Conditions that a type already expresses have no counterpart: a column that is
never null here is not tested for it, and an enumeration has no other values.

* `Row`, `checkRow` — a row that a transaction writes, and whether the database
  takes it.
-/

namespace EternalAI.Dispatch

open Lib Truth

/-! ## work_objects -/

def legacyStatuses : List LifecycleStatus :=
  [.assigned, .departmentPending, .inProgress, .completed]

def currentStatuses : List LifecycleStatus :=
  [.assigned, .departmentPending, .inProgress, .awaitingDepartmentReview, .awaitingAcceptance,
    .completed, .withdrawn]

section

variable (r : Root)

/-- The target that a row names, with the statuses it excludes. -/
def Root.targetCondition : Truth :=
  (known (r.targetKind = .user) &&& isNotNull r.assigneeDirectoryUserId &&&
      on r.assigneeDirectoryUserId (lengthWithin 1 128) &&& isNull r.assigneeDisplayName &&&
      known (r.status ≠ .departmentPending)) |||
    (known (r.targetKind = .department) &&& isNull r.assigneeDirectoryUserId &&&
      isNotNull r.assigneeDisplayName &&& known (r.status ≠ .assigned))

/-- `_LEGACY_MANUAL` and `_V2_MANUAL`, which differ in the statuses they list. -/
def Root.manualCondition (statuses : List LifecycleStatus) (r : Root) : Truth :=
  known (r.tenantId ≠ []) &&& known (lengthWithin 1 128 r.ownerDepartmentId) &&&
    known (r.initiatorAiUserId ≠ []) &&& known (1 ≤ r.version) &&&
    known (lengthWithin 1 200 r.title) &&& known (r.requirement.length ≤ 10000) &&&
    known (r.receiptRequirement.length ≤ 2000) &&& known (r.status ∈ statuses) &&&
    isNull r.assigneeAiUserId &&& r.targetCondition &&&
    known (r.reminderChoices = canonicalReminders r.reminderChoices) &&&
    (isNotNull r.dueAt ||| known (r.reminderChoices = []))

/-- `ck_work_objects_manual_dispatch_complete`. -/
def Root.checkManual : Bool :=
  ((isNull r.dispatchModelVersion &&& known (r.manualCondition legacyStatuses).isTrue) |||
    (on r.dispatchModelVersion (· = 2) &&&
      known (r.manualCondition currentStatuses).isTrue)).isTrue

def Root.legacyLifecycle : Truth :=
  (known (r.status = .assigned ∨ r.status = .departmentPending) &&&
      isNull r.acceptedByAiUserId &&& isNull r.acceptedAt &&& isNull r.completedByAiUserId &&&
      isNull r.completedAt) |||
    (known (r.status = .inProgress) &&& known (2 ≤ r.version) &&&
      isNotNull r.acceptedByAiUserId &&& on r.acceptedByAiUserId (· ≠ []) &&&
      isNotNull r.acceptedAt &&& on r.acceptedAt (r.createdAt ≤ ·) &&&
      on r.acceptedAt (· ≤ r.updatedAt) &&& isNull r.completedByAiUserId &&&
      isNull r.completedAt) |||
    (known (r.status = .completed) &&& known (3 ≤ r.version) &&&
      isNotNull r.acceptedByAiUserId &&& on r.acceptedByAiUserId (· ≠ []) &&&
      isNotNull r.acceptedAt &&& isNotNull r.completedByAiUserId &&&
      on₂ r.completedByAiUserId r.acceptedByAiUserId (· = ·) &&& isNotNull r.completedAt &&&
      on r.acceptedAt (r.createdAt ≤ ·) &&&
      on₂ r.acceptedAt r.completedAt (· ≤ ·) &&& on r.completedAt (r.updatedAt = ·))

/-- Completion is recorded exactly in its status. -/
def Root.completionCondition : Truth :=
  (known (r.status = .completed) &&& isNotNull r.completedByAiUserId &&&
      on r.completedByAiUserId (· ≠ []) &&& isNotNull r.completedAt &&&
      on r.completedAt (r.createdAt ≤ ·) &&& on r.completedAt (r.updatedAt = ·)) |||
    (known (r.status ≠ .completed) &&& isNull r.completedByAiUserId &&& isNull r.completedAt)

def Root.acceptanceCondition : Truth :=
  (isNull r.acceptedAt &&& isNull r.acceptedByAiUserId) |||
    (isNotNull r.acceptedAt &&& isNotNull r.acceptedByAiUserId &&&
      on r.acceptedAt (r.createdAt ≤ ·) &&& on r.acceptedAt (· ≤ r.updatedAt))

/-- Withdrawal is recorded exactly in its status. -/
def Root.withdrawalCondition : Truth :=
  (known (r.status = .withdrawn) &&& isNotNull r.withdrawnAt &&&
      isNotNull r.withdrawnByAiUserId &&& on r.withdrawnByAiUserId (· ≠ []) &&&
      on r.withdrawnAt (r.createdAt ≤ ·) &&& on r.withdrawnAt (r.updatedAt = ·)) |||
    (known (r.status ≠ .withdrawn) &&& isNull r.withdrawnAt &&& isNull r.withdrawnByAiUserId)

/-- `ck_work_objects_lifecycle_fields`. -/
def Root.checkLifecycle : Bool :=
  ((isNull r.dispatchModelVersion &&& known r.legacyLifecycle.isTrue) |||
    (on r.dispatchModelVersion (· = 2) &&& r.completionCondition &&& r.acceptanceCondition &&&
      r.withdrawalCondition)).isTrue

/-- `ck_work_objects_dispatch_v2_modes`. -/
def Root.checkModes : Bool :=
  ((isNull r.dispatchModelVersion &&& isNull r.dispatchMode &&& isNull r.completionMode &&&
      isNull r.withdrawnAt &&& isNull r.withdrawnByAiUserId) |||
    (on r.dispatchModelVersion (· = 2) &&& on r.dispatchMode (fun _ => true) &&&
      on r.completionMode (fun _ => true))).isTrue

def Root.check : Bool := r.checkManual && r.checkLifecycle && r.checkModes

end

/-! ## work_object_handling_relations -/

/-- `btrim(value)` removes spaces only. -/
def btrim (value : Str) : Str := strip [' '] value

section

variable (r : Relation)

def Relation.checkTarget : Bool :=
  ((known (r.targetKind = .user) &&& isNotNull r.targetDirectoryUserId &&&
      on r.targetDirectoryUserId (lengthWithin 1 128)) |||
    (known (r.targetKind = .department) &&& isNull r.targetDirectoryUserId)).passes

def Relation.checkTimes : Bool :=
  (known (r.createdAt ≤ r.updatedAt) &&&
    (isNull r.supersededAt ||| on r.supersededAt (r.createdAt ≤ ·))).passes

def Relation.checkPending : Bool :=
  ((known (r.status = .departmentPending) &&& known (r.targetKind = .department) &&&
      isNull r.assigneeDirectoryUserId) |||
    (known (r.status ≠ .departmentPending) &&& isNotNull r.assigneeDirectoryUserId)).passes

def Relation.checkAccepted : Bool :=
  ((isNull r.acceptedAt &&& isNull r.acceptedByAiUserId) |||
    (isNotNull r.acceptedAt &&& isNotNull r.acceptedByAiUserId &&&
      on r.acceptedAt (r.createdAt ≤ ·))).passes

/-- The statuses in which a relation holds a submission. -/
def RelationStatus.handedIn : RelationStatus → Bool
  | .awaitingDepartmentReview | .submitted => true
  | _ => false

def Relation.checkSubmitted : Bool :=
  ((known r.status.handedIn &&& isNotNull r.submittedAt &&& isNotNull r.submittedByAiUserId &&&
      isNotNull r.submittedResult &&& on r.submittedResult (lengthWithin 1 10000)) |||
    (known (!r.status.handedIn) &&& isNull r.submittedAt &&& isNull r.submittedByAiUserId &&&
      isNull r.submittedResult)).passes

def Relation.checkReviewed : Bool :=
  ((isNull r.reviewedAt &&& isNull r.reviewedByAiUserId &&& isNull r.reviewResult &&&
      isNull r.reviewReason) |||
    (isNotNull r.reviewedAt &&& isNotNull r.reviewedByAiUserId &&& isNotNull r.reviewResult &&&
      known (r.targetKind = .department) &&&
      (on r.reviewResult id ||| on r.reviewReason (fun s => btrim s ≠ [])))).passes

def Relation.check : Bool :=
  lengthWithin 1 128 r.targetDepartmentId && r.checkTarget && r.checkTimes && r.checkPending &&
    r.checkAccepted && r.checkSubmitted && r.checkReviewed

end

/-! ## work_object_lifecycle_events -/

section

variable (e : Event)

/-- An event that names no relation. -/
def Event.rootOnly : Truth := isNull e.handlingRelationId

/-- An event that takes its relation between the given statuses. -/
def Event.moves (before after : List RelationStatus) : Truth :=
  isNotNull e.handlingRelationId &&& on e.relationFromStatus (· ∈ before) &&&
    on e.relationToStatus (· ∈ after)

def anyRelationStatus : List RelationStatus :=
  [.departmentPending, .assigned, .inProgress, .awaitingDepartmentReview, .submitted]

def Event.into (statuses : List LifecycleStatus) : Truth :=
  known (e.toStatus ∈ statuses)

/-- The row of the transition table for the operation of the event. -/
def Event.transition : Truth :=
  match e.operation with
  | .assign => e.moves anyRelationStatus [.assigned] &&&
      e.into [.assigned, .inProgress, .awaitingDepartmentReview] &&& isNull e.text
  | .accept => e.moves [.assigned] [.inProgress] &&&
      e.into [.inProgress, .awaitingDepartmentReview] &&& isNull e.text
  | .feedback => e.moves [.inProgress] [.inProgress] &&&
      e.into [.inProgress, .awaitingDepartmentReview] &&& on e.text (lengthWithin 1 10000)
  | .submit | .complete => e.moves [.inProgress] [.submitted, .awaitingDepartmentReview] &&&
      e.into [.inProgress, .awaitingDepartmentReview, .awaitingAcceptance, .completed] &&&
      on e.text (lengthWithin 1 10000)
  | .departmentReview => e.moves [.awaitingDepartmentReview] [.inProgress, .submitted] &&&
      on e.payload (Json.hasKey "approved") &&&
      (on e.relationToStatus (· = .submitted) ||| on e.text (fun s => btrim s ≠ [])) &&&
      e.into [.inProgress, .awaitingDepartmentReview, .awaitingAcceptance, .completed]
  | .submitSummary => e.rootOnly &&& isNull e.relationFromStatus &&& isNull e.relationToStatus &&&
      e.into [.awaitingAcceptance, .completed] &&& on e.text (lengthWithin 1 10000)
  | .confirm => e.rootOnly &&& known (e.fromStatus = .awaitingAcceptance) &&&
      e.into [.completed] &&& isNull e.text
  | .returnTask => e.rootOnly &&& known (e.fromStatus = .awaitingAcceptance) &&&
      e.into [.inProgress] &&& on e.text (fun s => btrim s ≠ [])
  | .revise => e.rootOnly &&& e.into [.assigned, .departmentPending, .inProgress] &&&
      on e.payload (Json.hasKey "before") &&& on e.payload (Json.hasKey "after")
  | .withdraw => e.rootOnly &&& e.into [.withdrawn] &&& on e.text (fun s => btrim s ≠ [])
  | .extend => e.rootOnly &&& known (e.fromStatus = e.toStatus) &&&
      on e.payload (Json.hasKey "after_due_at")
  | .reassign => e.rootOnly &&& e.into [.assigned, .departmentPending] &&&
      on e.payload (Json.hasKey "replacement_relation_ids")

/-- The relation columns are all null or all set. -/
def Event.relationCondition : Truth :=
  (isNull e.handlingRelationId &&& isNull e.relationFromStatus &&& isNull e.relationToStatus &&&
      on e.visibility (· = .shared)) |||
    (isNotNull e.handlingRelationId &&& on e.relationFromStatus (· ∈ anyRelationStatus) &&&
      on e.relationToStatus (· ∈ anyRelationStatus))

/-- The transition table of the events written before the migration. -/
def Event.legacyTransition : Truth :=
  match e.operation with
  | .accept => known (e.fromStatus = .assigned ∨ e.fromStatus = .departmentPending) &&&
      e.into [.inProgress] &&& isNull e.text
  | .feedback => known (e.fromStatus = .inProgress) &&& e.into [.inProgress] &&&
      isNotNull e.text &&& on e.text (lengthWithin 1 2000)
  | .complete => known (e.fromStatus = .inProgress) &&& e.into [.completed] &&&
      isNotNull e.text &&& on e.text (lengthWithin 1 2000)
  | _ => known False

/-- `ck_work_object_lifecycle_transition`. -/
def Event.check : Bool :=
  ((isNull e.eventModelVersion &&& isNull e.handlingRelationId &&& isNull e.relationFromStatus &&&
      isNull e.relationToStatus &&& isNull e.payload &&& isNull e.visibility &&&
      known e.legacyTransition.isTrue) |||
    (on e.eventModelVersion (· = 2) &&& on e.visibility (fun _ => true) &&&
      on e.payload Json.isObject &&& e.relationCondition &&&
      known (e.fromStatus ∈ [LifecycleStatus.assigned, .departmentPending, .inProgress,
        .awaitingDepartmentReview, .awaitingAcceptance]) &&&
      e.into currentStatuses &&& e.transition)).isTrue

end

/-! ## Rows -/

inductive Row where
  | root (r : Root)
  | relation (r : Relation)
  | event (e : Event)

def checkRow : Row → Bool
  | .root r => r.check
  | .relation r => r.check
  | .event e => e.check

end EternalAI.Dispatch
