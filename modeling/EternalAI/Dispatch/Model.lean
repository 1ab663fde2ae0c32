import EternalAI.Dispatch.Text
import EternalAI.Lib.Except
import EternalAI.Lib.Json
import Mathlib.Data.List.Dedup
import Mathlib.Data.List.Sort

/-!
# Dispatched tasks — rows, identities and commands

The data of `app/ports/work_object.py`, `app/ports/work_object_dispatch.py`,
`app/ports/work_object_lifecycle.py` and `app/ports/work_object_scope.py`: the
row of a manually dispatched task (`Root`), its handling relations, its
lifecycle events, the identity a request acts under (`Scope`), and the
commands.

Columns that the database requires of every manual dispatch have no null here;
columns that are null in every such row (the OA snapshot and its handling mark)
are left out. A command carries what its model has validated: a text field is
trimmed and bounded, a rejection has a reason.

* `Root.validateDispatch` — the validator that every load of a row runs.
-/

namespace EternalAI.Dispatch

open Lib List

/-- An instant of the wall clock. -/
abbrev Time := Int

/-- A reading of the monotonic clock. -/
abbrev Tick := Int

abbrev Uuid := Nat

/-! ## Vocabulary -/

inductive TargetKind where
  | user | department
  deriving DecidableEq, Repr

inductive Role where
  | single | lead | collaborator
  deriving DecidableEq, Repr

inductive RelationStatus where
  | departmentPending | assigned | inProgress | awaitingDepartmentReview | submitted
  deriving DecidableEq, Repr

inductive LifecycleStatus where
  | assigned | departmentPending | inProgress | completed | awaitingDepartmentReview
  | awaitingAcceptance | withdrawn
  deriving DecidableEq, Repr

inductive DispatchMode where
  | independent | collaborative
  deriving DecidableEq, Repr

inductive CompletionMode where
  | submitCompletes | confirmRequired
  deriving DecidableEq, Repr

/-- 通知, 督办令, 工作任务 and 提醒. -/
inductive DispatchKind where
  | notice | supervision | task | reminder
  deriving DecidableEq, Repr

/-- 提前 7 天, 提前 3 天, 提前 1 天 and 逾期当天. -/
inductive ReminderChoice where
  | sevenDays | threeDays | oneDay | overdue
  deriving DecidableEq, Repr

inductive Visibility where
  | shared | departmentInternal
  deriving DecidableEq, Repr

inductive LifecycleOperation where
  | assign | accept | feedback | complete | submit | departmentReview | submitSummary | confirm
  | returnTask | revise | withdraw | extend | reassign
  deriving DecidableEq, Repr

/-- `REMINDER_CHOICES`, in their canonical order. -/
def reminderOrder : List ReminderChoice := [.sevenDays, .threeDays, .oneDay, .overdue]

/-- `[c for c in REMINDER_CHOICES if c in choices]`. -/
def canonicalReminders (choices : List ReminderChoice) : List ReminderChoice :=
  reminderOrder.filter (· ∈ choices)

/-- The codes of `WorkDispatchError`. `validationError` is the exception of a
model that refuses its input, `stopIteration` that of `next` on nothing. -/
inductive DispatchError where
  | organizationDirectoryStale | directoryMembershipAmbiguous | directoryMembershipMissing
  | notDepartmentHead | crossDepartmentDispatchDenied | dispatchTargetDepartmentMissing
  | dispatchTargetMembershipAmbiguous | dispatchTargetMembershipMissing
  | dispatchDepartmentHeadMissing | dispatchDepartmentHeadAmbiguous
  | workObjectAuditUnavailable | workObjectNotFound | idempotencyKeyReused
  | workObjectActionForbidden | workObjectTransitionInvalid | workObjectPreconditionRequired
  | workObjectVersionConflict | workObjectLegacyConversionBlocked
  | workObjectLifecycleRequestInvalid | workObjectLifecycleFailed | workObjectDispatchFailed
  | workObjectStoreUnavailable | workObjectAttachmentInvalid
  | workObjectAttachmentLimitExceeded | transitionInvalid | preconditionRequired
  | versionConflict | validationError (message : String) | stopIteration
  deriving DecidableEq, Repr

/-! ## Rows -/

structure Root where
  (workObjectId tenantId ownerDepartmentId initiatorAiUserId : Str)
  targetKind : TargetKind
  (assigneeAiUserId assigneeDisplayName assigneeDirectoryUserId : Option Str)
  title : Str
  kind : DispatchKind
  (requirement receiptRequirement : Str)
  dueAt : Option Time
  reminderChoices : List ReminderChoice
  status : LifecycleStatus
  version : Nat
  acceptedByAiUserId : Option Str
  acceptedAt : Option Time
  completedByAiUserId : Option Str
  completedAt : Option Time
  withdrawnByAiUserId : Option Str
  withdrawnAt : Option Time
  dispatchModelVersion : Option Nat
  dispatchMode : Option DispatchMode
  completionMode : Option CompletionMode
  (createdAt updatedAt : Time)
  deriving DecidableEq, Repr

/-- `HandlingRelationRecord`: one target's share in a task. -/
structure Relation where
  relationId : Uuid
  (tenantId workObjectId : Str)
  targetKind : TargetKind
  targetDepartmentId : Str
  targetDirectoryUserId : Option Str
  role : Role
  (assigneeDirectoryUserId assigneeAiUserId : Option Str)
  status : RelationStatus
  acceptedAt : Option Time
  acceptedByAiUserId : Option Str
  submittedAt : Option Time
  (submittedByAiUserId submittedResult : Option Str)
  reviewedAt : Option Time
  reviewedByAiUserId : Option Str
  reviewResult : Option Bool
  reviewReason : Option Str
  (createdAt updatedAt : Time)
  supersededAt : Option Time
  deriving DecidableEq, Repr

def Relation.target (r : Relation) : TargetKind × Str × Option Str :=
  (r.targetKind, r.targetDepartmentId, r.targetDirectoryUserId)

/-- `LifecycleEventRecord`. -/
structure Event where
  eventId : Uuid
  (workObjectId tenantId actorAiUserId : Str)
  operation : LifecycleOperation
  idempotencyKey : Uuid
  requestFingerprint : String
  (fromStatus toStatus : LifecycleStatus)
  resultVersion : Nat
  occurredAt : Time
  text : Option Str
  eventModelVersion : Option Nat
  handlingRelationId : Option Uuid
  (relationFromStatus relationToStatus : Option RelationStatus)
  payload : Option Json
  visibility : Option Visibility
  deriving DecidableEq

section

variable (root : Root)

/-- `status in {"completed", "withdrawn"}`. -/
def Root.frozen : Bool :=
  root.status == .completed || root.status == .withdrawn

/-! ## The validator of a stored row -/

/-- `value == value.strip(SEARCH_WHITESPACE)`. -/
def textNormalised (value : Str) : Bool := strip searchWhitespace value == value

def lengthWithin (lo hi : Nat) (value : Str) : Bool :=
  decide (lo ≤ value.length) && decide (value.length ≤ hi)

/-- The evidence of completion that a row of the current model must carry. -/
def Root.validateCompletion : Except String Unit :=
  if root.status = .completed then
    ensure (root.completedAt = some root.updatedAt ∧
        root.completedByAiUserId.any (· ≠ [])) "completion evidence required"
  else
    ensure (root.completedAt = none ∧ root.completedByAiUserId = none)
      "non-completed task cannot carry completion"

/-- A text field of a row of the current model. -/
def ensureText (lo hi : Nat) (value : Str) : Except String Unit :=
  ensure (textNormalised value ∧ lengthWithin lo hi value) "invalid dispatch text"

/-- The branch of `InternalWorkObjectRecord._validate_dispatch` for rows of the
current dispatch model. -/
def Root.validateCurrent : Except String Unit := do
  ensure (root.dispatchModelVersion = some 2) "unsupported dispatch model"
  ensure (root.tenantId ≠ [] ∧ root.initiatorAiUserId ≠ [] ∧ root.ownerDepartmentId ≠ [])
    "dispatch identity required"
  ensure (root.dispatchMode.isSome ∧ root.completionMode.isSome) "dispatch modes required"
  ensure (1 ≤ root.version) "dispatch lifecycle required"
  ensureText 1 200 root.title
  ensureText 0 10000 root.requirement
  ensureText 0 2000 root.receiptRequirement
  ensure (root.reminderChoices = canonicalReminders root.reminderChoices ∧
      (root.dueAt.isSome ∨ root.reminderChoices = [])) "invalid reminders"
  root.validateCompletion
  ensure (root.status = .withdrawn ↔
      root.withdrawnAt.isSome ∧ root.withdrawnByAiUserId.isSome)
    "withdrawal evidence inconsistent"

/-- A text field of a row that was never converted. -/
def ensureLegacyText (lo hi : Nat) (value : Str) : Except String Unit := do
  ensure (textNormalised value) "manual dispatch text must be normalized"
  ensure (lengthWithin lo hi value) "manual dispatch text length is invalid"

def Root.validateLegacyTarget : Except String Unit :=
  match root.targetKind with
  | .user =>
    ensure (root.assigneeDirectoryUserId.any (lengthWithin 1 128) ∧
        root.assigneeDisplayName = none ∧ root.status ≠ .departmentPending)
      "manual user target is inconsistent"
  | .department =>
    ensure (root.assigneeDirectoryUserId = none ∧ root.assigneeDisplayName.isSome ∧
        root.status ≠ .assigned) "manual department target is inconsistent"

/-- The evidence that a legacy row must carry once it was accepted. -/
def Root.validateLegacyAccepted : Except String Unit := do
  ensure (root.acceptedByAiUserId.any (· ≠ []) ∧ 2 ≤ root.version ∧
      root.acceptedAt.any fun t => root.createdAt ≤ t ∧ t ≤ root.updatedAt)
    "accepted state requires consistent evidence"
  if root.status = .inProgress then
    ensure (root.completedByAiUserId = none ∧ root.completedAt = none)
      "in-progress state cannot carry completion"
  else
    ensure (3 ≤ root.version ∧ root.completedByAiUserId = root.acceptedByAiUserId ∧
        root.completedAt = some root.updatedAt ∧ root.acceptedAt.any (· ≤ root.updatedAt))
      "completed state requires consistent evidence"

def Root.validateLegacyEvidence : Except String Unit :=
  if root.status = .assigned ∨ root.status = .departmentPending then
    ensure (root.acceptedByAiUserId = none ∧ root.acceptedAt = none ∧
        root.completedByAiUserId = none ∧ root.completedAt = none)
      "initial state cannot carry lifecycle fields"
  else root.validateLegacyAccepted

/-- The branch of `InternalWorkObjectRecord._validate_dispatch` for rows that
were never converted. -/
def Root.validateLegacy : Except String Unit := do
  ensure (root.assigneeAiUserId = none) "manual dispatch requires the internal target identity"
  ensure (root.tenantId ≠ [] ∧ root.initiatorAiUserId ≠ [])
    "manual dispatch requires trusted tenant and initiator"
  ensure (lengthWithin 1 128 root.ownerDepartmentId)
    "manual dispatch requires a bounded department"
  ensure (1 ≤ root.version) "manual dispatch requires a positive version"
  ensureLegacyText 1 200 root.title
  ensureLegacyText 0 10000 root.requirement
  ensureLegacyText 0 2000 root.receiptRequirement
  root.validateLegacyTarget
  root.validateLegacyEvidence
  ensure (root.reminderChoices = canonicalReminders root.reminderChoices)
    "manual reminders must be canonical"
  ensure (root.dueAt.isSome ∨ root.reminderChoices = []) "reminders require a due date"

/-- `InternalWorkObjectRecord._validate_dispatch` on a manual dispatch. -/
def Root.validateDispatch : Except String Unit :=
  if root.dispatchModelVersion.isSome then root.validateCurrent else root.validateLegacy

def Root.Reloads : Prop := root.validateDispatch = .ok ()

instance : Decidable root.Reloads :=
  inferInstanceAs (Decidable (_ = _))

end

/-! ## Identities -/

/-- `OrganizationUserMembership`; the importer refuses a row with a blank id. -/
structure Membership where
  (userId departmentId : Str)
  jobTitle : Option Str
  identified : userId ≠ []
  deriving DecidableEq

/-- `OrganizationDepartment`. -/
structure Department where
  (departmentId displayName : Str)
  deriving DecidableEq

/-- `FreshDirectoryView`: what a request has read of the organisation
directory, and until when it may be relied on. -/
structure FreshDirectory where
  departments : List Department
  memberships : List Membership
  validUntil : Tick

/-- `DispatchSubject`: the authenticated principal; the server never issues an
empty identity. -/
structure Subject where
  (tenantId aiUserId : Str)
  directoryUserId : Option Str
  identified : aiUserId ≠ []

/-- `AuthorizedWorkObjectScope`. -/
structure Scope where
  (tenantId aiUserId : Str)
  (departmentId directoryUserId : Option Str)
  responsibleDepartmentIds : List Str
  validUntil : Option Tick
  identified : aiUserId ≠ []

/-- The readings of the monotonic clock during one request. -/
structure Clock where
  reading : Nat → Tick
  mono : ∀ i j, i ≤ j → reading i ≤ reading j

def departmentHeadJobtitleIds : List Str :=
  [['7', '5'], ['3', '8', '0'], ['1', '4', '0', '5'], ['1', '7', '0', '1'], ['1', '9', '9', '9']]

def isDepartmentHead (m : Membership) : Bool := m.jobTitle.any (· ∈ departmentHeadJobtitleIds)

/-- `fresh.memberships.get(user_id, [])`. -/
def FreshDirectory.membershipsOf (fresh : FreshDirectory) (userId : Str) : List Membership :=
  fresh.memberships.filter (·.userId = userId)

/-- `department_id in fresh.departments`. -/
def FreshDirectory.hasDepartment (fresh : FreshDirectory) (departmentId : Str) : Bool :=
  fresh.departments.any (·.departmentId = departmentId)

def FreshDirectory.heads (fresh : FreshDirectory) (departmentId : Str) : List Membership :=
  fresh.memberships.filter fun m => m.departmentId = departmentId && isDepartmentHead m

/-! ## Targets and requests -/

inductive DispatchTarget where
  | user (directoryUserId departmentId : Ident)
  | department (departmentId : Ident)
  deriving DecidableEq

namespace DispatchTarget

def kind : DispatchTarget → TargetKind
  | .user _ _ => .user
  | .department _ => .department

def departmentId : DispatchTarget → Str
  | .user _ d => d.val
  | .department d => d.val

/-- `target.directory_user_id if target.kind == "user" else None`. -/
def directoryUserId : DispatchTarget → Option Str
  | .user u _ => some u.val
  | .department _ => none

def columns (t : DispatchTarget) : TargetKind × Str × Option Str :=
  (t.kind, t.departmentId, t.directoryUserId)

/-- Order of strings by code point. -/
def strLe : Str → Str → Bool
  | [], _ => true
  | _ :: _, [] => false
  | a :: as, b :: bs => if a = b then strLe as bs else decide (a.toNat < b.toNat)

/-- Order of `target_key`. -/
def le : DispatchTarget → DispatchTarget → Bool
  | .department d, .department e => strLe d.val e.val
  | .department _, .user _ _ => true
  | .user _ _, .department _ => false
  | .user u d, .user v e => if d = e then strLe u.val v.val else strLe d.val e.val

/-- `[targets[k] for k in sorted(targets)]` of the targets by their keys. -/
def canonical (targets : List DispatchTarget) : List DispatchTarget :=
  targets.dedup.insertionSort fun a b => a.le b = true

theorem mem_canonical {targets : List DispatchTarget} {t : DispatchTarget} :
    t ∈ canonical targets ↔ t ∈ targets := by
  rw [canonical, mem_insertionSort, mem_dedup]

theorem nodup_canonical (targets : List DispatchTarget) : (canonical targets).Nodup :=
  (perm_insertionSort _ _).nodup_iff.mpr (nodup_dedup targets)

theorem columns_injective : Function.Injective columns := by
  intro a b hEq
  cases a with
  | user u d =>
    cases b with
    | user v e =>
      obtain ⟨-, hd, hu⟩ := (by simpa [columns, kind, departmentId, directoryUserId] using hEq :
        True ∧ d.val = e.val ∧ u.val = v.val)
      cases u; cases v; cases d; cases e
      simp_all
    | department e => simp [columns, kind] at hEq
  | department d =>
    cases b with
    | user v e => simp [columns, kind] at hEq
    | department e =>
      have hd : d.val = e.val := by simpa [columns, kind, departmentId, directoryUserId] using hEq
      cases d; cases e
      simp_all

end DispatchTarget

/-- The lead that a mode calls for. -/
def leadFits (mode : DispatchMode) (lead : Option DispatchTarget)
    (targets : List DispatchTarget) : Prop :=
  match mode with
  | .independent => lead = none
  | .collaborative => ∃ t ∈ lead, t ∈ targets

instance (mode : DispatchMode) (lead : Option DispatchTarget) (targets : List DispatchTarget) :
    Decidable (leadFits mode lead targets) :=
  match mode with
  | .independent => inferInstanceAs (Decidable (lead = none))
  | .collaborative => inferInstanceAs (Decidable (∃ t ∈ lead, t ∈ targets))

/-- A `DispatchRequest` as it arrives. -/
structure RawRequest where
  kind : DispatchKind
  (title requirement receiptRequirement : Str)
  dueAt : Option Time
  reminderChoices : List ReminderChoice
  targets : List DispatchTarget
  dispatchMode : DispatchMode
  completionMode : CompletionMode
  leadTarget : Option DispatchTarget
  attachmentIds : List Uuid

/-- A `DispatchRequest` that passed its validators, in canonical form. -/
structure DispatchRequest where
  kind : DispatchKind
  title : RequestText 1 200
  requirement : RequestText 0 10000
  receiptRequirement : RequestText 0 2000
  dueAt : Option Time
  reminderChoices : List ReminderChoice
  targets : List DispatchTarget
  dispatchMode : DispatchMode
  completionMode : CompletionMode
  leadTarget : Option DispatchTarget
  attachmentIds : List Uuid
  remindersCanonical : reminderChoices = canonicalReminders reminderChoices
  remindersDue : dueAt.isSome ∨ reminderChoices = []
  targetsNodup : targets.Nodup
  targetsNonempty : targets ≠ []
  leadFits : leadFits dispatchMode leadTarget targets

theorem canonicalReminders_idem (choices : List ReminderChoice) :
    canonicalReminders (canonicalReminders choices) = canonicalReminders choices := by
  unfold canonicalReminders
  refine filter_congr fun c hc => ?_
  simp [mem_filter, hc]

def fieldError (field : String) : DispatchError := .validationError field

/-- `DispatchRequest` on raw input: its field validators and `canonicalize`. -/
def RawRequest.validate (raw : RawRequest) : Except DispatchError DispatchRequest :=
  match Text.parse raw.title, Text.parse raw.requirement, Text.parse raw.receiptRequirement with
  | some title, some requirement, some receiptRequirement =>
    if raw.reminderChoices.length > 4 then .error (fieldError "reminder_choices")
    else if hTargets : raw.targets = [] ∨ raw.targets.length > 100 then
      .error (fieldError "targets")
    else if raw.attachmentIds.length > 10 then .error (fieldError "attachment_ids")
    else if hDue : raw.dueAt.isSome ∨ canonicalReminders raw.reminderChoices = [] then
      if hLead : leadFits raw.dispatchMode raw.leadTarget raw.targets then
        .ok {
          kind := raw.kind
          title, requirement, receiptRequirement
          dueAt := raw.dueAt
          reminderChoices := canonicalReminders raw.reminderChoices
          targets := DispatchTarget.canonical raw.targets
          dispatchMode := raw.dispatchMode
          completionMode := raw.completionMode
          leadTarget := raw.leadTarget
          attachmentIds := raw.attachmentIds.dedup.insertionSort (· ≤ ·)
          remindersCanonical := (canonicalReminders_idem _).symm
          remindersDue := hDue
          targetsNodup := DispatchTarget.nodup_canonical _
          targetsNonempty := by
            intro hNil
            obtain ⟨t, ht⟩ := exists_mem_of_ne_nil _ fun h => hTargets (.inl h)
            exact not_mem_nil (hNil ▸ DispatchTarget.mem_canonical.mpr ht)
          leadFits := by
            unfold Dispatch.leadFits at hLead ⊢
            split <;> simp_all [DispatchTarget.mem_canonical] }
      else .error (.validationError (match raw.dispatchMode with
        | .independent => "independent dispatch has no lead"
        | .collaborative => "collaboration requires one selected lead"))
    else .error (.validationError "reminders require due_at")
  | none, _, _ => .error (fieldError "title")
  | _, none, _ => .error (fieldError "requirement")
  | _, _, none => .error (fieldError "receipt_requirement")

/-! ## Commands -/

/-- `LifecycleCommand`, validated. -/
inductive LifecycleCommand where
  | assign (relationId : Uuid) (directoryUserId : Ident)
  | accept (relationId : Uuid)
  | feedback (relationId : Uuid) (text : CommandText 1 2000)
  | submit (relationId : Uuid) (text : CommandText 1 2000) (attachmentIds : List Uuid)
  | complete (text : CommandText 1 2000)
  | departmentReview (relationId : Uuid) (approved : Bool) (reason : CommandText 0 2000)
      (reasoned : approved = true ∨ reason.val ≠ [])
  | submitSummary (text : CommandText 1 2000) (attachmentIds : List Uuid)
  | confirm
  | returnTask (reason : CommandText 1 2000)
  | revise (title : CommandText 1 200) (requirement : CommandText 0 10000)
      (receiptRequirement : CommandText 0 2000) (completionMode : CompletionMode)
  | withdraw (reason : CommandText 1 2000)
  | extend (dueAt : Time)
  | reassign (targets : List DispatchTarget) (leadTarget : Option DispatchTarget)

namespace LifecycleCommand

def operation : LifecycleCommand → LifecycleOperation
  | .assign _ _ => .assign
  | .accept _ => .accept
  | .feedback _ _ => .feedback
  | .submit _ _ _ => .submit
  | .complete _ => .complete
  | .departmentReview _ _ _ _ => .departmentReview
  | .submitSummary _ _ => .submitSummary
  | .confirm => .confirm
  | .returnTask _ => .returnTask
  | .revise _ _ _ _ => .revise
  | .withdraw _ => .withdraw
  | .extend _ => .extend
  | .reassign _ _ => .reassign

/-- `getattr(command, "handling_relation_id", None)`. -/
def handlingRelationId : LifecycleCommand → Option Uuid
  | .assign r _ => some r
  | .accept r => some r
  | .feedback r _ => some r
  | .submit r _ _ => some r
  | .departmentReview r _ _ _ => some r
  | _ => none

/-- `getattr(command, "text", None)`. -/
def text : LifecycleCommand → Option Str
  | .feedback _ t => some t.val
  | .submit _ t _ => some t.val
  | .complete t => some t.val
  | .submitSummary t _ => some t.val
  | _ => none

/-- `getattr(command, "attachment_ids", [])`. -/
def attachmentIds : LifecycleCommand → List Uuid
  | .submit _ _ ids => ids
  | .submitSummary _ ids => ids
  | _ => []

end LifecycleCommand

end EternalAI.Dispatch
