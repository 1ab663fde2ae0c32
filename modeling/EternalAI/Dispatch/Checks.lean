import EternalAI.Dispatch.Schema
import EternalAI.Lib.Script

/-!
# Dispatched tasks — what the constraints say

The constraints of the database as propositions, and the comparison with the
validator that every read of a row runs.

* `Root.check_iff`, `Relation.check_iff` — a row passes its constraints exactly
  when it is `Current` or `Unconverted`, a relation when it is `Valid`.
* `Root.reloads_iff` — of a row that passes, the validator only asks in
  addition that its texts are normalised.
-/

namespace EternalAI.Dispatch

open Lib Truth

variable {root : Root} {r : Relation}

/-! ## Rows of tasks -/

def Root.TargetNamed (root : Root) : Prop :=
  match root.targetKind with
  | .user => (∃ user, root.assigneeDirectoryUserId = some user ∧ lengthWithin 1 128 user) ∧
      root.assigneeDisplayName = none ∧ root.status ≠ .departmentPending
  | .department => root.assigneeDirectoryUserId = none ∧ root.assigneeDisplayName.isSome ∧
      root.status ≠ .assigned

theorem targetCondition_isTrue : root.targetCondition.isTrue = true ↔ root.TargetNamed := by
  unfold Root.targetCondition Root.TargetNamed
  cases root.targetKind with
  | user =>
    cases root.assigneeDirectoryUserId <;> simp [and_assoc]
  | department => simp [and_assoc]

/-- The conditions that legacy rows and current ones share. -/
structure Root.Manual (statuses : List LifecycleStatus) (root : Root) : Prop where
  tenant : root.tenantId ≠ []
  owner : lengthWithin 1 128 root.ownerDepartmentId = true
  initiator : root.initiatorAiUserId ≠ []
  version : 1 ≤ root.version
  title : lengthWithin 1 200 root.title = true
  requirement : root.requirement.length ≤ 10000
  receipt : root.receiptRequirement.length ≤ 2000
  status : root.status ∈ statuses
  assignee : root.assigneeAiUserId = none
  target : root.TargetNamed
  reminders : root.reminderChoices = canonicalReminders root.reminderChoices
  due : root.dueAt.isSome = true ∨ root.reminderChoices = []

theorem manualCondition_isTrue {statuses : List LifecycleStatus} :
    (root.manualCondition statuses).isTrue = true ↔ root.Manual statuses := by
  unfold Root.manualCondition
  simp only [isTrue_and, isTrue_or, isTrue_known, isTrue_isNull, isTrue_isNotNull,
    Bool.and_eq_true, Bool.or_eq_true, decide_eq_true_eq, targetCondition_isTrue,
    Option.isNone_iff_eq_none]
  constructor
  · rintro ⟨⟨⟨⟨⟨⟨⟨⟨⟨⟨⟨h₁, h₂⟩, h₃⟩, h₄⟩, h₅⟩, h₆⟩, h₇⟩, h₈⟩, h₉⟩, h₁₀⟩, h₁₁⟩, h₁₂⟩
    exact ⟨h₁, h₂, h₃, h₄, h₅, h₆, h₇, h₈, h₉, h₁₀, h₁₁, h₁₂⟩
  · rintro ⟨h₁, h₂, h₃, h₄, h₅, h₆, h₇, h₈, h₉, h₁₀, h₁₁, h₁₂⟩
    exact ⟨⟨⟨⟨⟨⟨⟨⟨⟨⟨⟨h₁, h₂⟩, h₃⟩, h₄⟩, h₅⟩, h₆⟩, h₇⟩, h₈⟩, h₉⟩, h₁₀⟩, h₁₁⟩, h₁₂⟩

theorem stamped_iff {created updated t : Time} :
    (created ≤ t ∧ updated = t) ↔ (t = updated ∧ created ≤ updated) := by
  constructor
  · rintro ⟨hAfter, rfl⟩
    exact ⟨rfl, hAfter⟩
  · rintro ⟨rfl, hAfter⟩
    exact ⟨hAfter, rfl⟩

def Root.CompletionRecorded (root : Root) : Prop :=
  if root.status = .completed then
    root.completedByAiUserId.any (· ≠ []) = true ∧ root.completedAt = some root.updatedAt ∧
      root.createdAt ≤ root.updatedAt
  else root.completedByAiUserId = none ∧ root.completedAt = none

theorem completionCondition_isTrue :
    root.completionCondition.isTrue = true ↔ root.CompletionRecorded := by
  unfold Root.completionCondition Root.CompletionRecorded
  by_cases hStatus : root.status = .completed
  · cases root.completedAt with
    | none => simp [hStatus]
    | some t => cases root.completedByAiUserId <;> simp [hStatus, and_assoc, stamped_iff]
  · simp [hStatus]

def Root.AcceptanceRecorded (root : Root) : Prop :=
  (root.acceptedAt = none ∧ root.acceptedByAiUserId = none) ∨
    ∃ t, root.acceptedAt = some t ∧ root.acceptedByAiUserId.isSome = true ∧
      root.createdAt ≤ t ∧ t ≤ root.updatedAt

theorem acceptanceCondition_isTrue :
    root.acceptanceCondition.isTrue = true ↔ root.AcceptanceRecorded := by
  unfold Root.acceptanceCondition Root.AcceptanceRecorded
  cases root.acceptedAt <;> simp [and_assoc]

def Root.WithdrawalRecorded (root : Root) : Prop :=
  if root.status = .withdrawn then
    root.withdrawnByAiUserId.any (· ≠ []) = true ∧ root.withdrawnAt = some root.updatedAt ∧
      root.createdAt ≤ root.updatedAt
  else root.withdrawnAt = none ∧ root.withdrawnByAiUserId = none

theorem withdrawalCondition_isTrue :
    root.withdrawalCondition.isTrue = true ↔ root.WithdrawalRecorded := by
  unfold Root.withdrawalCondition Root.WithdrawalRecorded
  by_cases hStatus : root.status = .withdrawn
  · cases root.withdrawnAt with
    | none => simp [hStatus]
    | some t => cases root.withdrawnByAiUserId <;> simp [hStatus, and_assoc, stamped_iff]
  · simp [hStatus]

/-- A row of the current model that the database takes. -/
structure Root.Current (root : Root) : Prop where
  model : root.dispatchModelVersion = some 2
  manual : root.Manual currentStatuses
  completion : root.CompletionRecorded
  acceptance : root.AcceptanceRecorded
  withdrawal : root.WithdrawalRecorded
  mode : root.dispatchMode.isSome = true
  completionMode : root.completionMode.isSome = true

def Root.LegacyRecorded (root : Root) : Prop :=
  ((root.status = .assigned ∨ root.status = .departmentPending) ∧
      root.acceptedByAiUserId = none ∧ root.acceptedAt = none ∧
      root.completedByAiUserId = none ∧ root.completedAt = none) ∨
    (∃ user t, root.acceptedByAiUserId = some user ∧ user ≠ [] ∧ root.acceptedAt = some t ∧
      root.createdAt ≤ t ∧ t ≤ root.updatedAt ∧
      ((root.status = .inProgress ∧ 2 ≤ root.version ∧ root.completedByAiUserId = none ∧
          root.completedAt = none) ∨
        (root.status = .completed ∧ 3 ≤ root.version ∧ root.completedByAiUserId = some user ∧
          root.completedAt = some root.updatedAt)))

theorem legacyLifecycle_isTrue : root.legacyLifecycle.isTrue = true ↔ root.LegacyRecorded := by
  unfold Root.legacyLifecycle Root.LegacyRecorded
  cases root.acceptedByAiUserId with
  | none => cases root.status <;> cases root.acceptedAt <;> simp
  | some user =>
    cases root.acceptedAt with
    | none => cases root.status <;> simp
    | some t =>
      cases hStatus : root.status <;> simp
      · tauto
      · cases root.completedByAiUserId with
        | none => simp
        | some by_ =>
          cases root.completedAt with
          | none => simp
          | some t' =>
            simp only [Option.isSome_some, Option.any_some, decide_eq_true_eq, Option.some.injEq,
              and_true]
            constructor
            · rintro ⟨⟨⟨⟨⟨hVer, hUser⟩, rfl⟩, hAfter⟩, hLe⟩, rfl⟩
              exact ⟨hUser, hAfter, hLe, hVer, rfl, rfl⟩
            · rintro ⟨hUser, hAfter, hLe, hVer, rfl, rfl⟩
              exact ⟨⟨⟨⟨⟨hVer, hUser⟩, rfl⟩, hAfter⟩, hLe⟩, rfl⟩

/-- A row from before the current model that the database takes. -/
structure Root.Unconverted (root : Root) : Prop where
  model : root.dispatchModelVersion = none
  manual : root.Manual legacyStatuses
  recorded : root.LegacyRecorded
  mode : root.dispatchMode = none
  completionMode : root.completionMode = none
  withdrawal : root.withdrawnAt = none ∧ root.withdrawnByAiUserId = none

/-- **The constraints on the row of a task.** -/
theorem Root.check_iff : root.check = true ↔ root.Current ∨ root.Unconverted := by
  unfold Root.check Root.checkManual Root.checkLifecycle Root.checkModes
  cases hModel : root.dispatchModelVersion with
  | none =>
    simp only [isTrue_and, isTrue_or, isTrue_isNull, isTrue_known, isTrue_on, Option.isNone_none,
      Option.any_none, Bool.true_and, Bool.false_and, Bool.or_false, Bool.and_eq_true,
      decide_eq_true_eq, manualCondition_isTrue, legacyLifecycle_isTrue,
      Option.isNone_iff_eq_none]
    constructor
    · rintro ⟨⟨hManual, hRecorded⟩, ⟨⟨hMode, hCompletion⟩, hAt⟩, hBy⟩
      exact .inr ⟨hModel, hManual, hRecorded, hMode, hCompletion, hAt, hBy⟩
    · rintro (hCur | hOld)
      · exact absurd (hModel.symm.trans hCur.model) (by simp)
      · exact ⟨⟨hOld.manual, hOld.recorded⟩, ⟨⟨hOld.mode, hOld.completionMode⟩,
          hOld.withdrawal.1⟩, hOld.withdrawal.2⟩
  | some version =>
    simp only [isTrue_and, isTrue_or, isTrue_isNull, isTrue_known, isTrue_on, Option.isNone_some,
      Option.any_some, Bool.false_and, Bool.false_or, Bool.and_eq_true, decide_eq_true_eq,
      manualCondition_isTrue, completionCondition_isTrue, acceptanceCondition_isTrue,
      withdrawalCondition_isTrue]
    constructor
    · rintro ⟨⟨⟨rfl, hManual⟩, ⟨⟨-, hCompletion⟩, hAcceptance⟩, hWithdrawal⟩, ⟨-, hMode⟩, hEnd⟩
      refine .inl ⟨hModel, hManual, hCompletion, hAcceptance, hWithdrawal, ?_, ?_⟩
      · cases hEq : root.dispatchMode <;> simp_all
      · cases hEq : root.completionMode <;> simp_all
    · rintro (hCur | hOld)
      · obtain rfl : version = 2 := Option.some.inj (hModel.symm.trans hCur.model)
        refine ⟨⟨⟨rfl, hCur.manual⟩, ⟨⟨rfl, hCur.completion⟩, hCur.acceptance⟩,
          hCur.withdrawal⟩, ⟨rfl, ?_⟩, ?_⟩
        · have := hCur.mode
          cases hEq : root.dispatchMode <;> simp_all
        · have := hCur.completionMode
          cases hEq : root.completionMode <;> simp_all
      · exact absurd (hModel.symm.trans hOld.model) (by simp)

theorem Root.current_of_check (hCheck : root.check = true)
    (hModel : root.dispatchModelVersion ≠ none) : root.Current := by
  rcases Root.check_iff.mp hCheck with hCur | hOld
  · exact hCur
  · exact absurd hOld.model hModel

theorem Root.unconverted_of_check (hCheck : root.check = true)
    (hModel : root.dispatchModelVersion = none) : root.Unconverted := by
  rcases Root.check_iff.mp hCheck with hCur | hOld
  · exact absurd (hModel.symm.trans hCur.model) (by simp)
  · exact hOld

/-! ## The validator -/

def Root.Normalised (root : Root) : Prop :=
  textNormalised root.title = true ∧ textNormalised root.requirement = true ∧
    textNormalised root.receiptRequirement = true

instance (root : Root) : Decidable root.Normalised :=
  inferInstanceAs (Decidable (_ ∧ _))

variable {hi : Nat} {value : Str}

theorem lengthWithin_zero : lengthWithin 0 hi value = true ↔ value.length ≤ hi := by
  simp [lengthWithin]

theorem ne_nil_of_lengthWithin {lo : Nat} (hLen : lengthWithin (lo + 1) hi value) : value ≠ [] := by
  rintro rfl
  simp [lengthWithin] at hLen

theorem Root.Current.validateCompletion (hCur : root.Current) :
    root.validateCompletion = .ok () := by
  have hRec := hCur.completion
  unfold Root.CompletionRecorded at hRec
  unfold Root.validateCompletion
  split
  · rw [if_pos ‹_›] at hRec
    exact ensure_ok.mpr ⟨hRec.2.1, hRec.1⟩
  · rw [if_neg ‹_›] at hRec
    exact ensure_ok.mpr ⟨hRec.2, hRec.1⟩

theorem Root.Current.withdrawn_iff (hCur : root.Current) :
    root.status = .withdrawn ↔
      root.withdrawnAt.isSome = true ∧ root.withdrawnByAiUserId.isSome = true := by
  have hRec := hCur.withdrawal
  unfold Root.WithdrawalRecorded at hRec
  split at hRec
  · obtain ⟨hBy, hAt, -⟩ := hRec
    refine iff_of_true ‹_› ⟨by rw [hAt]; rfl, ?_⟩
    cases hEq : root.withdrawnByAiUserId <;> simp_all
  · refine iff_of_false ‹_› ?_
    rw [hRec.1]
    simp

theorem Root.Current.reloads_iff (hCur : root.Current) : root.Reloads ↔ root.Normalised := by
  have hManual := hCur.manual
  unfold Root.Reloads Root.validateDispatch Root.validateCurrent Root.Normalised ensureText
  rw [if_pos (by rw [hCur.model]; rfl)]
  simp only [bind_ok, ensure_ok, exists_const, hCur.validateCompletion, true_and,
    lengthWithin_zero]
  constructor
  · rintro ⟨-, -, -, -, hTitle, hReq, hReceipt, -⟩
    exact ⟨hTitle.1, hReq.1, hReceipt.1⟩
  · rintro ⟨hTitle, hReq, hReceipt⟩
    exact ⟨hCur.model, ⟨hManual.tenant, hManual.initiator, ne_nil_of_lengthWithin hManual.owner⟩,
      ⟨hCur.mode, hCur.completionMode⟩, hManual.version, ⟨hTitle, hManual.title⟩,
      ⟨hReq, hManual.requirement⟩, ⟨hReceipt, hManual.receipt⟩, ⟨hManual.reminders, hManual.due⟩,
      hCur.withdrawn_iff⟩

theorem Root.TargetNamed.validate (hTarget : root.TargetNamed) :
    root.validateLegacyTarget = .ok () := by
  unfold Root.TargetNamed at hTarget
  unfold Root.validateLegacyTarget
  cases hKind : root.targetKind with
  | user =>
    rw [hKind] at hTarget
    obtain ⟨⟨user, hUser, hLen⟩, hName, hStatus⟩ := hTarget
    refine ensure_ok.mpr ⟨?_, hName, hStatus⟩
    rw [hUser]
    exact hLen
  | department =>
    rw [hKind] at hTarget
    exact ensure_ok.mpr hTarget

theorem Root.LegacyRecorded.validate (hRec : root.LegacyRecorded) :
    root.validateLegacyEvidence = .ok () := by
  unfold Root.validateLegacyEvidence Root.validateLegacyAccepted
  rcases hRec with ⟨hStatus, hNone⟩ | ⟨user, t, hBy, hUser, hAt, hAfter, hLe, hRest⟩
  · rw [if_pos hStatus]
    exact ensure_ok.mpr hNone
  · have hAny : root.acceptedByAiUserId.any (· ≠ []) = true := by
      rw [hBy]
      simpa using hUser
    have hTime : (root.acceptedAt.any fun t => root.createdAt ≤ t ∧ t ≤ root.updatedAt) = true := by
      rw [hAt]
      simpa using ⟨hAfter, hLe⟩
    rcases hRest with ⟨hStatus, hVer, hNone, hNone'⟩ | ⟨hStatus, hVer, hCompleted, hEnd⟩
    · rw [if_neg (by simp [hStatus]), if_pos hStatus]
      exact bind_ok.mpr ⟨(), ensure_ok.mpr ⟨hAny, hVer, hTime⟩,
        ensure_ok.mpr ⟨hNone, hNone'⟩⟩
    · rw [if_neg (by simp [hStatus]), if_neg (by simp [hStatus])]
      refine bind_ok.mpr ⟨(), ensure_ok.mpr ⟨hAny, by omega, hTime⟩,
        ensure_ok.mpr ⟨hVer, hCompleted.trans hBy.symm, hEnd, ?_⟩⟩
      rw [hAt]
      simpa using hLe

theorem Root.Unconverted.reloads_iff (hOld : root.Unconverted) :
    root.Reloads ↔ root.Normalised := by
  have hManual := hOld.manual
  unfold Root.Reloads Root.validateDispatch Root.validateLegacy Root.Normalised ensureLegacyText
  rw [if_neg (by rw [hOld.model]; simp)]
  simp only [bind_ok, ensure_ok, exists_const, hManual.target.validate,
    hOld.recorded.validate, true_and, lengthWithin_zero]
  constructor
  · rintro ⟨-, -, -, -, hTitle, hReq, hReceipt, -⟩
    exact ⟨hTitle.1, hReq.1, hReceipt.1⟩
  · rintro ⟨hTitle, hReq, hReceipt⟩
    exact ⟨hManual.assignee, ⟨hManual.tenant, hManual.initiator⟩, hManual.owner, hManual.version,
      ⟨hTitle, hManual.title⟩, ⟨hReq, hManual.requirement⟩, ⟨hReceipt, hManual.receipt⟩,
      hManual.reminders, hManual.due⟩

/-- **What the validator adds to the constraints**: normalised texts, and
nothing else. -/
theorem Root.reloads_iff (hCheck : root.check = true) : root.Reloads ↔ root.Normalised := by
  rcases Root.check_iff.mp hCheck with hCur | hOld
  · exact hCur.reloads_iff
  · exact hOld.reloads_iff

/-! ## Handling relations -/

section

variable (r : Relation)

def Relation.TargetNamed : Prop :=
  match r.targetKind with
  | .user => ∃ user, r.targetDirectoryUserId = some user ∧ lengthWithin 1 128 user = true
  | .department => r.targetDirectoryUserId = none

/-- A relation has an assignee unless its department has yet to choose one. -/
def Relation.AssigneeNamed : Prop :=
  if r.status = .departmentPending then
    r.targetKind = .department ∧ r.assigneeDirectoryUserId = none
  else r.assigneeDirectoryUserId.isSome = true

def Relation.AcceptanceRecorded : Prop :=
  (r.acceptedAt = none ∧ r.acceptedByAiUserId = none) ∨
    ∃ t, r.acceptedAt = some t ∧ r.acceptedByAiUserId.isSome = true ∧ r.createdAt ≤ t

/-- A submission is recorded exactly in the statuses that hold one. -/
def Relation.SubmissionRecorded : Prop :=
  if r.status.handedIn then
    r.submittedAt.isSome = true ∧ r.submittedByAiUserId.isSome = true ∧
      ∃ text, r.submittedResult = some text ∧ lengthWithin 1 10000 text = true
  else r.submittedAt = none ∧ r.submittedByAiUserId = none ∧ r.submittedResult = none

/-- A review is recorded as a whole, by a department, and a rejection has a
reason. -/
def Relation.ReviewRecorded : Prop :=
  (r.reviewedAt = none ∧ r.reviewedByAiUserId = none ∧ r.reviewResult = none ∧
      r.reviewReason = none) ∨
    (r.reviewedAt.isSome = true ∧ r.reviewedByAiUserId.isSome = true ∧
      r.targetKind = .department ∧
      ∃ approved, r.reviewResult = some approved ∧
        (approved = true ∨ r.reviewReason.all (fun s => btrim s ≠ []) = true))

end

/-- A relation that the database takes. -/
structure Relation.Valid (r : Relation) : Prop where
  department : lengthWithin 1 128 r.targetDepartmentId = true
  target : r.TargetNamed
  updated : r.createdAt ≤ r.updatedAt
  superseded : ∀ t ∈ r.supersededAt, r.createdAt ≤ t
  assignee : r.AssigneeNamed
  acceptance : r.AcceptanceRecorded
  submission : r.SubmissionRecorded
  review : r.ReviewRecorded

theorem checkTarget_iff : r.checkTarget = true ↔ r.TargetNamed := by
  unfold Relation.checkTarget Relation.TargetNamed
  cases r.targetKind <;> cases r.targetDirectoryUserId <;> simp

theorem checkTimes_iff :
    r.checkTimes = true ↔ r.createdAt ≤ r.updatedAt ∧ ∀ t ∈ r.supersededAt, r.createdAt ≤ t := by
  unfold Relation.checkTimes
  cases r.supersededAt <;> simp

theorem checkPending_iff : r.checkPending = true ↔ r.AssigneeNamed := by
  unfold Relation.checkPending Relation.AssigneeNamed
  by_cases hStatus : r.status = .departmentPending <;> simp [hStatus]

theorem checkAccepted_iff : r.checkAccepted = true ↔ r.AcceptanceRecorded := by
  unfold Relation.checkAccepted Relation.AcceptanceRecorded
  cases r.acceptedAt <;> simp

theorem checkSubmitted_iff : r.checkSubmitted = true ↔ r.SubmissionRecorded := by
  unfold Relation.checkSubmitted Relation.SubmissionRecorded
  cases r.status.handedIn <;> cases r.submittedResult <;> simp [and_assoc]

theorem checkReviewed_iff : r.checkReviewed = true ↔ r.ReviewRecorded := by
  unfold Relation.checkReviewed Relation.ReviewRecorded
  cases r.reviewResult <;> cases r.reviewReason <;> simp [and_assoc]

/-- **The constraints on a relation.** -/
theorem Relation.check_iff : r.check = true ↔ r.Valid := by
  unfold Relation.check
  simp only [Bool.and_eq_true, checkTarget_iff, checkTimes_iff, checkPending_iff,
    checkAccepted_iff, checkSubmitted_iff, checkReviewed_iff]
  constructor
  · rintro ⟨⟨⟨⟨⟨⟨h₁, h₂⟩, h₃, h₄⟩, h₅⟩, h₆⟩, h₇⟩, h₈⟩
    exact ⟨h₁, h₂, h₃, h₄, h₅, h₆, h₇, h₈⟩
  · rintro ⟨h₁, h₂, h₃, h₄, h₅, h₆, h₇, h₈⟩
    exact ⟨⟨⟨⟨⟨⟨h₁, h₂⟩, h₃, h₄⟩, h₅⟩, h₆⟩, h₇⟩, h₈⟩

end EternalAI.Dispatch
