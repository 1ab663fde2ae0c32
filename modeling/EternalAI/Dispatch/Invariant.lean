import EternalAI.Dispatch.Checks
import EternalAI.Dispatch.Structure

/-!
# Dispatched tasks — the invariant of a stored task

A stored task is `Sound`: its rows pass the constraints of the database, and
if it is of the current model it has the structure of one. The lifecycle
transaction keeps it sound, provided that what the service has prepared for it
fits the task (`Submission.FitFor`).

* `RootFrame` — the columns that no lifecycle command changes.
* `handle_covered` — every relation left by a command was there before, or was
  written and therefore checked.
* `commandTask_sound` — the step of the invariant.
-/

namespace EternalAI.Dispatch

open Lib List

variable {env : Env} {sub : Submission} {task : Task} {files : List Attachment}
  {loaded : Loaded} {outcome : Outcome} {r : Relation}

/-! ## Columns that stay -/

/-- The columns of a row that no lifecycle command changes. -/
structure RootFrame (before after : Root) : Prop where
  workObjectId : after.workObjectId = before.workObjectId
  tenantId : after.tenantId = before.tenantId
  initiatorAiUserId : after.initiatorAiUserId = before.initiatorAiUserId
  assigneeAiUserId : after.assigneeAiUserId = before.assigneeAiUserId
  reminderChoices : after.reminderChoices = before.reminderChoices
  dispatchModelVersion : after.dispatchModelVersion = before.dispatchModelVersion
  dispatchMode : after.dispatchMode = before.dispatchMode
  createdAt : after.createdAt = before.createdAt

theorem acceptRoot_frame (sub : Submission) (root : Root) :
    RootFrame root (sub.acceptRoot root) := by
  unfold Submission.acceptRoot
  split
  · split <;> exact ⟨rfl, rfl, rfl, rfl, rfl, rfl, rfl, rfl⟩
  · exact ⟨rfl, rfl, rfl, rfl, rfl, rfl, rfl, rfl⟩

variable {relation : Option Relation} {rows : List Row}

theorem RootHandled.frame (hHandled : RootHandled sub loaded files outcome rows) :
    RootFrame loaded.root (outcome.finalRoot sub loaded.root) := by
  cases hHandled <;> exact ⟨rfl, rfl, rfl, rfl, rfl, rfl, rfl, rfl⟩

theorem handle_frame (hOk : (handle sub loaded relation files).result = .ok outcome) :
    RootFrame loaded.root (outcome.finalRoot sub loaded.root) := by
  cases relation with
  | some r =>
    obtain ⟨table, reopened, status, files', -, -, -, rfl, -⟩ := handleRelation_ok hOk
    obtain ⟨h₁, h₂, h₃, h₄, h₅, h₆, h₇, h₈⟩ := acceptRoot_frame sub loaded.root
    exact ⟨h₁, h₂, h₃, h₄, h₅, h₆, h₇, h₈⟩
  | none => exact (handleRoot_cases hOk).frame

/-! ## Relations that are left -/

theorem changeRelation_covered (table : List Relation) :
    Covered table (changeRelation sub r table) := by
  intro table' hRes x hx
  by_cases hOp : sub.command.operation = .assign
  · obtain ⟨id, user, hCmd⟩ := assign_of_operation hOp
    obtain ⟨-, -, rfl, hRows⟩ := changeRelation_assign hCmd hRes
    rw [hRows, mem_append]
    rcases mem_append.mp hx with hx | hx
    · rcases Covered.supersedeRelation _ result_supersedeRelation x hx with hOld | hNew
      · exact .inl hOld
      · exact .inr (.inl hNew)
    · rw [mem_singleton.mp hx]
      exact .inr (.inr (mem_singleton_self _))
  · rw [changeRelation_update hOp] at hRes ⊢
    exact Covered.updateWhere table' hRes x hx

theorem RootHandled.covered (hHandled : RootHandled sub loaded files outcome rows) :
    ∀ x ∈ outcome.table, x ∈ loaded.table ∨ .relation x ∈ rows := by
  cases hHandled with
  | summary | confirmed | withdrawn | extended => exact fun x hx => .inl hx
  | returned _ hInv | revised _ hInv => exact Covered.invalidateSubmissions _ hInv
  | @reassigned _ _ rs _ _ _ _ _ _ _ _ hIns =>
    intro x hx
    rw [mem_append]
    rcases Covered.insertRelations rs _ hIns x hx with hOld | hNew
    · exact (Covered.supersedeRelations loaded.relations _ (result_supersedeRelations _)
        x hOld).imp_right .inl
    · exact .inr (.inr hNew)

/-- **Every relation that a command leaves was there, or was written.** -/
theorem handle_covered (hOk : (handle sub loaded relation files).result = .ok outcome) :
    ∀ x ∈ outcome.table, x ∈ loaded.table ∨
      .relation x ∈ (handle sub loaded relation files).rows := by
  cases relation with
  | some r =>
    obtain ⟨table, reopened, status, files', hChange, hReopen, -, rfl, hRows⟩ :=
      handleRelation_ok hOk
    intro x hx
    show _ ∨ _ ∈ (handleRelation sub loaded r files).rows
    rw [hRows, mem_append]
    have hTable : ∀ y ∈ table, y ∈ loaded.table ∨
        .relation y ∈ (changeRelation sub r loaded.table).rows :=
      changeRelation_covered _ table hChange
    rcases reopen_ok hReopen with ⟨rfl, -⟩ | ⟨-, tick, inv, hInv, rfl, hRows'⟩
    · exact (hTable x hx).imp_right .inl
    · rw [hRows']
      rcases Covered.invalidateSubmissions _ hInv x hx with hOld | hNew
      · exact (hTable x hOld).imp_right .inl
      · exact .inr (.inr hNew)
  | none => exact (handleRoot_cases hOk).covered

/-! ## Conversion -/

/-- A legacy row that has changed in nothing but what its files change. -/
def SameLegacy (old new : Root) : Prop :=
  new = { old with version := new.version, updatedAt := new.updatedAt }

/-- A relation that stands for the target of the legacy row. -/
def LegacyCopy (env : Env) (root : Root) (r : Relation) : Prop :=
  ∃ old tenantId assignee status, SameLegacy old root ∧ status ≠ .awaitingDepartmentReview ∧
    r = old.legacyRecord env tenantId assignee status

/-- **What the service has prepared fits the task.** -/
structure Submission.FitFor (env : Env) (sub : Submission) (task : Task) : Prop where
  replaces : ∀ rs, sub.replacementRelations = some rs →
    Replaces (task.root.dispatchMode.getD .independent) rs
  legacy : task.root.dispatchModelVersion = none → ∀ r, sub.legacyConversionRelation = some r →
    LegacyCopy env task.root r

theorem convertLegacy_ok (hFit : sub.FitFor env task)
    (hModel : task.root.dispatchModelVersion = none)
    (hOk : (convertLegacy env sub task).result = .ok loaded) :
    ∃ r, LegacyCopy env task.root r ∧ (∀ x ∈ task.relations, x.relationId ≠ r.relationId) ∧
      loaded = ⟨task.root.converted, [r], task.relations ++ [r]⟩ ∧
      (convertLegacy env sub task).rows = [.relation r, .root task.root.converted] := by
  unfold convertLegacy at hOk ⊢
  cases hOr : sub.legacyConversionRelation.or (legacyRelationForScope env task.root sub.scope) with
  | none =>
    rw [hOr] at hOk
    cases hOk
  | some r =>
    rw [hOr] at hOk
    obtain ⟨table, hIns, hOk⟩ := Script.result_bind_ok.mp hOk
    obtain ⟨hFree, rfl⟩ := result_insertRelation.mp hIns
    refine ⟨r, ?_, hFree, (Except.ok.inj hOk).symm, ?_⟩
    · -- the relation that the service has prepared, or else the one that the scope sees
      rcases Option.or_eq_some_iff.mp hOr with hPrepared | ⟨-, hVirtual⟩
      · exact hFit.legacy hModel r hPrepared
      · unfold legacyRelationForScope at hVirtual
        simp only at hVirtual
        split at hVirtual
        · refine ⟨task.root, _, _, _, rfl, ?_, (Option.some.inj hVirtual).symm⟩
          split <;> simp
        · cases hVirtual
    · rw [Script.rows_bind_ok hIns, rows_insertRelation hIns]
      rfl

theorem LegacyCopy.structured {root : Root} (hOld : root.Unconverted) (hOpen : root.frozen = false)
    (hCopy : LegacyCopy env root r) : Structured root.converted [r] := by
  obtain ⟨old, tenantId, assignee, status, hSame, hNot, rfl⟩ := hCopy
  have hKind : root.targetKind = old.targetKind := by rw [hSame]
  -- The only target column that is not copied is null already.
  have hTarget : (old.legacyRecord env tenantId assignee status).target = root.target := by
    have hOwner : root.ownerDepartmentId = old.ownerDepartmentId := by rw [hSame]
    have hUser : root.assigneeDirectoryUserId = old.assigneeDirectoryUserId := by rw [hSame]
    have hNamed := hOld.manual.target
    unfold Relation.target Root.target Root.legacyRecord
    unfold Root.TargetNamed at hNamed
    rw [hKind] at hNamed ⊢
    rw [hOwner, hUser] at *
    cases hK : old.targetKind with
    | user => simp
    | department =>
      rw [hK] at hNamed
      simp [hNamed.1]
  -- the statuses of the old model know no review and no acceptance
  have hStatus : root.status ≠ .awaitingDepartmentReview ∧ root.status ≠ .awaitingAcceptance := by
    have hIn := hOld.manual.status
    constructor <;> rintro hEq <;> simp [hEq, legacyStatuses] at hIn
  refine ⟨nodup_singleton _, ⟨.independent, rfl, _, rfl⟩, ?_, ?_, ?_⟩
  · rintro (h | h)
    · exact absurd h hStatus.2
    · have : root.frozen = true := by
        unfold Root.frozen
        rw [show root.status = .completed from h]
        rfl
      rw [this] at hOpen
      cases hOpen
  · intro _ x hx _
    rw [mem_singleton.mp hx]
    exact iff_of_false hStatus.1 hNot
  · intro x hx _
    rw [mem_singleton.mp hx]
    exact hTarget

/-! ## Sound tasks -/

/-- **The invariant of a stored task.** -/
structure Task.Sound (task : Task) : Prop where
  checked : task.root.check = true
  relations : ∀ r ∈ task.relations, r.check = true
  structured : task.root.dispatchModelVersion ≠ none → Structured task.root task.relations
  bare : task.root.dispatchModelVersion = none → task.relations = []

theorem prepare_ok (hSound : task.Sound) (hFit : sub.FitFor env task)
    (hOpen : task.root.frozen = false) (hOk : (prepare env sub task).result = .ok loaded) :
    loaded.Tracks ∧ loaded.root.dispatchModelVersion ≠ none ∧
      loaded.root.dispatchMode.getD .independent = task.root.dispatchMode.getD .independent ∧
      loaded.root.status = task.root.status ∧ loaded.root.version = task.root.version ∧
      ∀ x ∈ loaded.table, x ∈ task.relations ∨ .relation x ∈ (prepare env sub task).rows := by
  unfold prepare at hOk ⊢
  by_cases hModel : task.root.dispatchModelVersion = none
  · rw [hModel] at hOk ⊢
    simp only [Option.isNone_none, if_true] at hOk ⊢
    obtain ⟨r, hCopy, -, rfl, hRows⟩ := convertLegacy_ok hFit hModel hOk
    have hOld := Root.unconverted_of_check hSound.checked hModel
    rw [hSound.bare hModel, hRows]
    refine ⟨⟨?_, hCopy.structured hOld hOpen⟩, by simp [Root.converted], ?_, rfl, rfl, ?_⟩
    · -- The only relation is current.
      obtain ⟨old, tenantId, assignee, status, -, -, rfl⟩ := hCopy
      exact .rfl
    · rw [hOld.mode]
      rfl
    · intro x hx
      rw [mem_singleton.mp hx]
      exact .inr mem_cons_self
  · have hSome : task.root.dispatchModelVersion.isNone = false := by
      cases hEq : task.root.dispatchModelVersion <;> simp_all
    rw [if_neg (by rw [hSome]; simp)] at hOk ⊢
    cases hOk
    exact ⟨⟨copies_loadRelations _ _ _, hSound.structured hModel⟩, hModel, rfl, rfl, rfl,
      fun x hx => .inl hx⟩

variable {selected : Option Relation × LifecycleOperation}

section

variable (hSound : task.Sound) (hFit : sub.FitFor env task)

include hSound hFit

theorem Mutation.structured (hOpen : task.root.frozen = false)
    (hMut : Mutation env sub task files loaded selected outcome) :
    Structured (outcome.finalRoot sub loaded.root) outcome.table := by
  obtain ⟨hTracks, -, hMode, -⟩ := prepare_ok hSound hFit hOpen hMut.prepared
  have hHandled := hMut.handled
  have hOffer := hMut.offered
  have hReplaces := hFit.replaces
  obtain ⟨relation, op⟩ := selected
  cases relation with
  | some r => exact handleRelation_structured hTracks (selected_some hMut.chosen).1 hHandled
  | none =>
    simp only [selected_none hMut.chosen] at hOffer
    rw [← hMode] at hReplaces
    exact (handleRoot_cases hHandled).structured hTracks hOffer hReplaces

theorem Mutation.sound (hOpen : task.root.frozen = false)
    (hMut : Mutation env sub task files loaded selected outcome)
    (hRows : ∀ row ∈ (prepare env sub task).rows ++ (handle sub loaded selected.1 files).rows ++
      [.root (outcome.finalRoot sub loaded.root),
        .event (outcome.event sub loaded.root selected.1)], checkRow row = true) :
    (mutated sub task loaded selected.1 outcome).Sound := by
  obtain ⟨-, hModel, -, -, -, hTable⟩ := prepare_ok hSound hFit hOpen hMut.prepared
  refine ⟨hRows (.root (outcome.finalRoot sub loaded.root)) (by simp), ?_,
    fun _ => hMut.structured hSound hFit hOpen, ?_⟩
  · -- a relation was stored and sound, or one of the rows that have passed
    intro x hx
    rcases handle_covered hMut.handled x hx with hOld | hNew
    · rcases hTable x hOld with hOld | hNew
      · exact hSound.relations x hOld
      · exact hRows (.relation x) (by simp [hNew])
    · exact hRows (.relation x) (by simp [hNew])
  · intro hNone
    exact absurd ((handle_frame hMut.handled).dispatchModelVersion.symm.trans hNone) hModel

/-- **The lifecycle transaction keeps a task sound.** -/
theorem commandTask_sound {failed : DispatchError} {out : MutationResult × Task × List Attachment}
    (hRun : (commandTask env sub (some task) files).run checkRow failed = .ok out) :
    out.2.1.Sound := by
  obtain ⟨_, _, ⟨⟩, hCase, hRows⟩ := commandTask_ok hRun
  cases hCase with
  | replayed => exact hSound
  | mutated _ hAdmit hMut => exact hMut.sound hSound hFit (checkAdmission_ok hAdmit).1 hRows

end

end EternalAI.Dispatch
