import EternalAI.Dispatch.Lifecycle

/-!
# Dispatched tasks — views before and after a conversion

A task from before the current model has no relations. Its view shows one that is made up
for the actor (`legacy_relation_for_scope`), and the first command on it stores one that is
prepared from the directory (`_prepare_legacy_relation`).

* `virtual_eq` — where the view shows a relation, it is the one that is stored.
* `legacy_conversion_agrees` — the conversion leaves the commands on offer alone exactly
  where a relation was shown, or the stored one offers the actor nothing.
* `conversion_offers_assignment` — the head of a department is shown no relation of a task
  that nobody has accepted, and may assign it once it is stored.
-/

namespace EternalAI.Dispatch

open Lib List

def LifecycleView.commands (view : LifecycleView) : List LifecycleOperation :=
  view.availableCommands ++ view.relations.flatMap RelationView.availableCommands

def Task.converted (task : Task) (relation : Relation) : Task :=
  { task with root := task.root.converted, relations := task.relations ++ [relation] }

variable {env : Env} {root : Root} {task : Task} {scope : Scope} {fresh : FreshDirectory}
  {stored : Relation} {sub : Submission} {early late early' late' : Tick}
  {before after : LifecycleView}

theorem assignee_eq {assignee : Option Str}
    (hAssignee : legacyConversionAssignee root scope fresh = .ok assignee)
    (hNamed : (root.legacyAssignee scope).any (· ≠ [])) : root.legacyAssignee scope = assignee := by
  unfold legacyConversionAssignee at hAssignee
  unfold Root.legacyAssignee at hNamed ⊢
  cases hKind : root.targetKind with
  | user => grind
  | department => grind

section

variable (hPrep : prepareLegacyRelation env root scope fresh = .ok stored)

include hPrep

/-- A relation that is shown is the one that a conversion stores: the row is visible, so
its tenant is the actor's, and it is shown to somebody, so its department is not waiting. -/
theorem virtual_eq (hTenant : root.tenantId = scope.tenantId) {virtual : Relation}
    (hVirtual : legacyRelationForScope env root scope = some virtual) : virtual = stored := by
  obtain ⟨assignee, hAssignee, rfl⟩ := prepareLegacyRelation_ok hPrep
  simp only [legacyRelationForScope, Option.ite_none_right_eq_some, Option.some.injEq] at hVirtual
  obtain ⟨⟨hNamed, -⟩, rfl⟩ := hVirtual
  have hStatus : root.conversionStatus (root.legacyAssignee scope) =
      if root.acceptedAt.isSome then .inProgress else .assigned := by
    rw [Root.conversionStatus, if_pos hNamed]
  rw [← assignee_eq hAssignee hNamed, hTenant, hStatus]

theorem prepared_projected (now : Tick) :
    stored.supersededAt = none ∧ stored.projected scope now = stored := by
  obtain ⟨assignee, -, rfl⟩ := prepareLegacyRelation_ok hPrep
  refine ⟨rfl, ?_⟩
  unfold Relation.projected
  split
  · rfl
  · -- nothing was submitted, whatever the status
    cases root.conversionStatus assignee <;> rfl

theorem loadRelations_prepared (now : Tick) : loadRelations scope now [stored] = [stored] := by
  obtain ⟨hCurrent, hSame⟩ := prepared_projected hPrep now
  simp [loadRelations, current, hCurrent, hSame]

end

theorem projectLifecycle_commands (hMode : root.dispatchMode ≠ some .collaborative)
    (relations : List Relation) : (projectLifecycle root relations scope).commands =
      initiatorActions root scope ++
        relations.flatMap fun r => relationActions r scope root.frozen := by
  have hLead : leadActions root relations scope = [] := by
    unfold leadActions
    rw [if_neg]
    simp [hMode]
  simp [LifecycleView.commands, projectLifecycle, hLead, flatMap_map, Relation.view]

variable {calls : ClientCall → Prop} {h : List World} {ps : Procs World DispatchError} {w : World}
  {id : Str}

/--
**What a conversion changes on offer.** For every unfinished task from before the current
model, in every state of every interleaving of requests, and every actor for whom its
conversion is not blocked: the conversion stores one relation, and if the view has shown
one before, it was this one, in all its columns. The commands that are offered stay the
same exactly if the view has shown the relation, or the relation offers the actor nothing.
-/
theorem legacy_conversion_agrees (hRun : ServiceRun env calls h ps) (hw : w ∈ h)
    (hTask : w.tasks id = some task) (hModel : task.root.dispatchModelVersion = none)
    (hOpen : task.root.frozen = false)
    (hPrep : prepareLegacyRelation env task.root sub.scope fresh = .ok stored)
    (hSub : sub.legacyConversionRelation = some stored)
    (hBefore : loadLifecycleView env sub.scope early late (some task) = .ok (task, before))
    (hAfter : loadLifecycleView env sub.scope early' late' (some (task.converted stored)) =
      .ok (task.converted stored, after)) :
    (convertLegacy env sub task).result =
        .ok ⟨(task.converted stored).root, [stored], (task.converted stored).relations⟩ ∧
      (∀ virtual, legacyRelationForScope env task.root sub.scope = some virtual →
        virtual = stored) ∧
      (before.commands = after.commands ↔
        (legacyRelationForScope env task.root sub.scope).isSome ∨
          relationActions stored sub.scope false = []) := by
  have hSound := (history_mem_sound hRun.steps hw id task hTask).2
  have hBare : task.relations = [] := hSound.bare hModel
  have hOld := Root.unconverted_of_check hSound.checked hModel
  have hConvert : (convertLegacy env sub task).result =
      .ok ⟨(task.converted stored).root, [stored], (task.converted stored).relations⟩ := by
    rw [convertLegacy, hSub]
    refine Script.result_bind_ok.mpr ⟨_, result_insertRelation.mpr ⟨?_, rfl⟩, rfl⟩
    rw [hBare]
    exact fun _ hx => absurd hx not_mem_nil
  -- both views are the actor's, who sees tasks of one tenant only
  have hTenant : task.root.tenantId = sub.scope.tenantId := by
    have hVisible := (loadManualRoot_ok.mp (loadLifecycleView_ok hBefore).1).2.1
    unfold rootVisible at hVisible
    simp only [Bool.and_eq_true, beq_iff_eq] at hVisible
    exact hVisible.1
  refine ⟨hConvert, fun virtual => virtual_eq hPrep hTenant, ?_⟩
  -- after the conversion the stored relation is all there is
  have hRelations : viewRelations env sub.scope late' (task.converted stored) = [stored] := by
    simp only [viewRelations, Task.converted, hBare, Root.converted]
    exact loadRelations_prepared hPrep late'
  have hThen : after.commands =
      initiatorActions task.root sub.scope ++ relationActions stored sub.scope false := by
    have hView : after = projectLifecycle task.root.converted [stored] sub.scope := by
      rw [← hRelations]
      exact (loadLifecycleView_ok hAfter).2
    have hFrozen : task.root.converted.frozen = false := hOpen
    rw [hView, projectLifecycle_commands (by simp [Root.converted]), hFrozen, flatMap_singleton]
    rfl
  have hMode : task.root.dispatchMode ≠ some .collaborative := by
    simp [hOld.mode]
  have hView :
      before = projectLifecycle task.root (viewRelations env sub.scope late task) sub.scope :=
    (loadLifecycleView_ok hBefore).2
  rw [hThen, hView, projectLifecycle_commands hMode, hOpen, append_cancel_left_eq]
  simp only [viewRelations, hModel, hBare, Option.isNone_none, if_true]
  cases hVirtual : legacyRelationForScope env task.root sub.scope with
  | some virtual => simp [virtual_eq hPrep hTenant hVirtual]
  | none => simp [loadRelations, current]

namespace Sample

/-- A task from before the current model, given by the head of the department. -/
def legacyTask (kind : TargetKind) : Task where
  root := {
    workObjectId := ['t'], tenantId := "default".toList, ownerDepartmentId := ['d']
    initiatorAiUserId := ['h'], targetKind := kind, assigneeAiUserId := none
    assigneeDisplayName := if kind = .user then none else some ['D']
    assigneeDirectoryUserId := if kind = .user then some ['u'] else none, title := ['a']
    kind := .task, requirement := [], receiptRequirement := [], dueAt := none
    reminderChoices := [], status := if kind = .user then .assigned else .departmentPending
    version := 1, acceptedByAiUserId := none, acceptedAt := none, completedByAiUserId := none
    completedAt := none, withdrawnByAiUserId := none, withdrawnAt := none
    dispatchModelVersion := none, dispatchMode := none, completionMode := none
    createdAt := 0, updatedAt := 0 }
  relations := []
  events := []
  remark := none
  remarkHistory := []

def legacyStore (kind : TargetKind) : World :=
  { empty with tasks := fun id => if id = ['t'] then some (legacyTask kind) else none }

theorem legacyStore_run (kind : TargetKind) :
    ServiceRun plainEnv (fun _ => True) [legacyStore kind] fun _ => none := by
  refine .start fun id task hTask => ?_
  obtain ⟨rfl, rfl⟩ : id = ['t'] ∧ legacyTask kind = task := by simpa [legacyStore] using hTask
  cases kind <;> decide +kernel

/-- The relation that a conversion stores for the task. -/
def legacyStored (kind : TargetKind) : Relation :=
  let root := (legacyTask kind).root
  let assignee := if kind = .user then some ['u'] else none
  root.legacyRecord plainEnv root.tenantId assignee (root.conversionStatus assignee)

def converting (subject : Subject) (kind : TargetKind) : Submission :=
  (commandCall subject 1 (.accept 0)).submission plainEnv ⟨some (legacyStored kind), ⟨none, none⟩⟩

end Sample

open Sample

/-- The worker may accept the task, before and after its conversion. -/
theorem legacy_conversion_agrees_sample :
    ∃ before after : LifecycleView, before.commands = after.commands ∧ after.commands = [.accept] ∧
      loadLifecycleView plainEnv (scopeOf worker (some directory)) 0 0
        (some (legacyTask .user)) = .ok (legacyTask .user, before) := by
  have hTask : (legacyStore .user).tasks ['t'] = some (legacyTask .user) := rfl
  have hPrep : prepareLegacyRelation plainEnv (legacyTask .user).root
      (converting worker .user).scope directory = .ok (legacyStored .user) := rfl
  have hAgrees := legacy_conversion_agrees (legacyStore_run .user) mem_cons_self hTask rfl rfl
    hPrep rfl (show loadLifecycleView _ _ 0 0 _ = _ from rfl)
      (show loadLifecycleView _ _ 0 0 _ = _ from rfl)
  exact ⟨_, _, hAgrees.2.2.mpr (.inl (by decide +kernel)), by decide +kernel, rfl⟩

/-- **A conversion brings a command.** The head of a department has given it a task in the
old model. The head is shown no relation of it, and is offered to assign it once another
command has converted it. -/
theorem conversion_offers_assignment :
    ¬∀ (env : Env) (calls : ClientCall → Prop) (h : List World) (ps : Procs World DispatchError)
      (w : World) (id : Str) (task : Task) (sub : Submission) (fresh : FreshDirectory)
      (stored : Relation) (early late early' late' : Tick) (before after : LifecycleView),
      ServiceRun env calls h ps → w ∈ h → w.tasks id = some task →
      task.root.dispatchModelVersion = none → task.root.frozen = false →
      prepareLegacyRelation env task.root sub.scope fresh = .ok stored →
      sub.legacyConversionRelation = some stored →
      loadLifecycleView env sub.scope early late (some task) = .ok (task, before) →
      loadLifecycleView env sub.scope early' late' (some (task.converted stored)) =
        .ok (task.converted stored, after) → before.commands = after.commands := by
  intro hSame
  have hCommands := hSame _ _ _ _ _ ['t'] (legacyTask .department)
    (converting head .department) directory _ 0 0 0 0 _ _
    (legacyStore_run .department) mem_cons_self rfl rfl rfl rfl rfl rfl rfl
  revert hCommands
  decide +kernel

end EternalAI.Dispatch
