import EternalAI.Dispatch.Steps

/-!
# Dispatched tasks — what holds along every history

The invariant of the store and the order of its states, proved together: that
what a request has prepared fits the task it is applied to follows from what
has stayed the same since, and that something stays the same follows from the
task being sound.

* `TaskStable` — what never changes in a task: the mode it is handled in, the
  past of its events, everything once it is finished.
* `history_sound`, `history_stable` — for every state of a history, and from
  every state to a later one.
* `PreparedFrom.fitFor` — what a request has prepared fits the task.
-/

namespace EternalAI.Dispatch

open Lib List

variable {env : Env} {calls : ClientCall → Prop} {w w' : World} {t h : List World} {id : Str}
  {task task' : Task}

/-! ## Stability -/

theorem SameLegacy.trans {a b c : Root} (hab : SameLegacy a b) (hbc : SameLegacy b c) :
    SameLegacy a c := by
  rw [hab] at hbc
  exact hbc

/-- **What stays the same in a task.** -/
structure TaskStable (before after : Task) : Prop where
  mode : after.root.dispatchMode.getD .independent = before.root.dispatchMode.getD .independent
  legacy : after.root.dispatchModelVersion = none → SameLegacy before.root after.root
  version : before.root.version ≤ after.root.version
  events : before.events <+: after.events
  frozen : before.root.frozen = true → after.root = before.root ∧
    after.relations = before.relations ∧ after.events = before.events

theorem TaskStable.refl (task : Task) : TaskStable task task :=
  ⟨rfl, fun _ => rfl, Nat.le_refl _, prefix_rfl, fun _ => ⟨rfl, rfl, rfl⟩⟩

theorem TaskStable.trans {a b c : Task} (hab : TaskStable a b) (hbc : TaskStable b c) :
    TaskStable a c where
  mode := hbc.mode.trans hab.mode
  legacy := by
    intro hModel
    have hStep := hbc.legacy hModel
    have hModel' : b.root.dispatchModelVersion = none := by
      rw [hStep] at hModel
      exact hModel
    exact (hab.legacy hModel').trans hStep
  version := hab.version.trans hbc.version
  events := hab.events.trans hbc.events
  frozen := by
    intro hFrozen
    obtain ⟨hRoot, hRels, hEvents⟩ := hab.frozen hFrozen
    obtain ⟨hRoot', hRels', hEvents'⟩ := hbc.frozen (by rw [hRoot]; exact hFrozen)
    exact ⟨hRoot'.trans hRoot, hRels'.trans hRels, hEvents'.trans hEvents⟩

/-- No task disappears, and each stays what it is. -/
def Stable (w w' : World) : Prop :=
  ∀ id task, w.tasks id = some task → ∃ task', w'.tasks id = some task' ∧ TaskStable task task'

theorem Stable.refl (w : World) : Stable w w :=
  fun _ task hTask => ⟨task, hTask, .refl task⟩

theorem Stable.trans {a b c : World} (hab : Stable a b) (hbc : Stable b c) : Stable a c := by
  intro id task hTask
  obtain ⟨mid, hMid, hFirst⟩ := hab id task hTask
  obtain ⟨last, hLast, hSecond⟩ := hbc id mid hMid
  exact ⟨last, hLast, hFirst.trans hSecond⟩

def World.Sound (w : World) : Prop :=
  ∀ id task, w.tasks id = some task → task.root.workObjectId = id ∧ task.Sound

theorem Legacy.sound (hInit : Legacy w) : w.Sound := by
  intro id task hTask
  obtain ⟨hId, hModel, hCheck, -, hNone⟩ := hInit id task hTask
  refine ⟨hId, hCheck, ?_, fun hSome => absurd hModel hSome, fun _ => hNone⟩
  rw [hNone]
  exact fun _ hr => nomatch hr

/-! ## What was prepared fits -/

variable {call : CommandCall} {root : Root} {prepared : Prepared}

theorem prepareCommand_ok {member : Membership}
    (hOk : prepareCommand env call member root = .ok prepared) :
    legacyConversion env root (scopeOf call.subject (some call.fresh)) call.fresh =
        .ok prepared.legacy ∧
      checkAssignee call.command member call.fresh = .ok () ∧
      prepareReplacement env call root = .ok prepared.replacement := by
  unfold prepareCommand at hOk
  simp only [bind_ok] at hOk
  obtain ⟨legacy, hLegacy, ⟨⟩, hAssignee, replacement, hRep, hOk⟩ := hOk
  cases hOk
  exact ⟨hLegacy, hAssignee, hRep⟩

/-- **What a request has prepared fits the task**, however much has happened
since. -/
theorem PreparedFrom.fitFor (hPrep : PreparedFrom env call prepared h)
    (hStable : ∀ past ∈ h, Stable past w) (hTask : w.tasks call.workObjectId = some task) :
    (call.submission env prepared).FitFor env task := by
  obtain ⟨past, hPast, old, member, hOld, hOk⟩ := hPrep
  obtain ⟨hLegacy, -, hRep⟩ := prepareCommand_ok hOk
  obtain ⟨task', hTask', hSame⟩ := hStable past hPast _ old hOld
  obtain rfl : task' = task := Option.some.inj (hTask'.symm.trans hTask)
  refine ⟨fun rs hRs => ?_, fun hModel r hr => ?_⟩
  · -- the replacement was made for the mode of the task then, which a task keeps
    rw [hSame.mode]
    exact prepareReplacement_replaces hRep hRs
  · have hSome : prepared.legacy = some r := hr
    rw [hSome] at hLegacy
    obtain ⟨assignee, hCopy⟩ := legacyConversion_copy hLegacy
    -- no status of a conversion is that of a review
    refine ⟨old.root, _, assignee, _, hSame.legacy hModel, ?_, hCopy⟩
    unfold Root.conversionStatus
    repeat' split
    all_goals simp

/-! ## One step -/

variable {sub : Submission} {loaded : Loaded}

/-- The row that a command works on differs from the stored one in the columns
of a conversion only. -/
theorem prepare_root (hOk : (prepare env sub task).result = .ok loaded) :
    loaded.root = task.root ∨
      task.root.dispatchModelVersion = none ∧ loaded.root = task.root.converted := by
  unfold prepare at hOk
  split at hOk
  · rename_i hModel
    unfold convertLegacy at hOk
    split at hOk
    · cases hOk
    · obtain ⟨table, -, hEnd⟩ := Script.result_bind_ok.mp hOk
      cases hEnd
      exact .inr ⟨Option.isNone_iff_eq_none.mp hModel, rfl⟩
  · cases hOk
    exact .inl rfl

variable {files : List Attachment} {selected : Option Relation × LifecycleOperation}
  {outcome : Outcome}

theorem Mutation.advances (hMut : Mutation env sub task files loaded selected outcome) :
    (outcome.finalRoot sub loaded.root).version = task.root.version + 1 := by
  show loaded.root.version + 1 = _
  rcases prepare_root hMut.prepared with hSame | ⟨-, hConv⟩
  · rw [hSame]
  · rw [hConv]
    rfl

theorem Mutation.stable (hSound : task.Sound) (hFit : sub.FitFor env task)
    (hOpen : task.root.frozen = false)
    (hMut : Mutation env sub task files loaded selected outcome) :
    TaskStable task (mutated sub task loaded selected.1 outcome) := by
  obtain ⟨-, hModel, hMode, -⟩ := prepare_ok hSound hFit hOpen hMut.prepared
  have hFrame := handle_frame hMut.handled
  refine ⟨?_, fun hNone => ?_, ?_, prefix_append .., fun hFrozen => ?_⟩
  · show (outcome.finalRoot sub loaded.root).dispatchMode.getD _ = _
    rw [hFrame.dispatchMode, hMode]
  · exact absurd (hFrame.dispatchModelVersion.symm.trans hNone) hModel
  · exact (Nat.le_succ _).trans (Nat.le_of_eq hMut.advances.symm)
  · rw [hOpen] at hFrozen
    cases hFrozen

theorem commandTask_stable {failed : DispatchError} {out : MutationResult × Task × List Attachment}
    (hSound : task.Sound) (hFit : sub.FitFor env task)
    (hRun : (commandTask env sub (some task) files).run checkRow failed = .ok out) :
    TaskStable task out.2.1 := by
  obtain ⟨_, _, ⟨⟩, hCase, -⟩ := commandTask_ok hRun
  cases hCase with
  | replayed => exact .refl _
  | mutated _ hAdmit hMut => exact hMut.stable hSound hFit (checkAdmission_ok hAdmit).1

theorem touched_stable (now : Time) (hOpen : task.root.frozen = false) :
    TaskStable task { task with root := task.root.touched now } := by
  refine ⟨rfl, fun _ => rfl, Nat.le_succ _, prefix_rfl, fun hFrozen => ?_⟩
  rw [hOpen] at hFrozen
  cases hFrozen

theorem Structured.touched {table : List Relation} (hStr : Structured root table) (now : Time) :
    Structured (root.touched now) table :=
  { hStr with }

theorem preparedRoot_model {subject : Subject} {request : DispatchRequest} {prep : Preparation}
    {record : Root × List Relation} (hMem : record ∈ preparedRecords subject request prep) :
    record.1.dispatchModelVersion = some 2 := by
  obtain ⟨lead, targets, workObjectId, id, -, rfl⟩ := mem_preparedRecords hMem
  rfl

variable {stored : Option Task}

theorem TaskChange.keeps (hChange : TaskChange env calls h id stored (some task'))
    (hOld : ∀ task, stored = some task → task.root.workObjectId = id ∧ task.Sound)
    (hFit : ∀ call prepared task, call.workObjectId = id → PreparedFrom env call prepared h →
      stored = some task → (call.submission env prepared).FitFor env task) :
    task'.root.workObjectId = id ∧ task'.Sound ∧
      ∀ task, stored = some task → TaskStable task task' := by
  cases hChange with
  | same =>
    obtain ⟨hId, hSound⟩ := hOld task' rfl
    refine ⟨hId, hSound, fun task hEq => ?_⟩
    cases hEq
    exact .refl _
  | @created call record hCall hMem _ hId hRoot hRels hKeyed =>
    refine ⟨hId, ⟨hRoot, hRels, fun _ => preparedRecords_structured hMem hKeyed, fun hNone => ?_⟩,
      fun _ hEq => nomatch hEq⟩
    exact absurd ((preparedRoot_model hMem).symm.trans hNone) (by simp)
  | remarked =>
    rename_i task remark history
    obtain ⟨hId, hSound⟩ := hOld task rfl
    refine ⟨hId, { hSound with }, fun task hEq => ?_⟩
    cases hEq
    exact ⟨rfl, fun _ => rfl, Nat.le_refl _, prefix_rfl, fun _ => ⟨rfl, rfl, rfl⟩⟩
  | touched hOpen hCheck =>
    rename_i task now
    obtain ⟨hId, hSound⟩ := hOld task rfl
    refine ⟨hId, ⟨hCheck, hSound.relations, fun hModel => (hSound.structured hModel).touched _,
      hSound.bare⟩, fun task hEq => ?_⟩
    cases hEq
    exact touched_stable now hOpen
  | commanded hCall hId hPrep hRun =>
    rename_i task files call prepared out
    obtain ⟨hRootId, hSound⟩ := hOld task rfl
    have hFits := hFit call prepared task hId hPrep rfl
    have hAfter := commandTask_sound hSound hFits hRun
    refine ⟨?_, hAfter, fun task hEq => ?_⟩
    · obtain ⟨_, _, ⟨⟩, hCase, -⟩ := commandTask_ok hRun
      cases hCase with
      | replayed => exact hRootId
      | mutated _ _ hMut =>
        -- neither a handler nor a conversion touches the id
        refine (handle_frame hMut.handled).workObjectId.trans ?_
        rcases prepare_root hMut.prepared with hSame | ⟨-, hConv⟩
        · rw [hSame]
          exact hRootId
        · rw [hConv]
          exact hRootId
    · cases hEq
      exact commandTask_stable hSound hFits hRun

theorem TaskChange.remains (hChange : TaskChange env calls h id (some task) stored) :
    ∃ task', stored = some task' := by
  cases hChange <;> exact ⟨_, rfl⟩

/-! ## Whole histories -/

theorem WorldStep.keeps (hPast : ∀ x ∈ w :: t, x.Sound ∧ Stable x w)
    (hStep : WorldStep env calls (w :: t) w') : w'.Sound ∧ Stable w w' := by
  have hSound := (hPast w mem_cons_self).1
  have hFit : ∀ id call prepared task, call.workObjectId = id →
      PreparedFrom env call prepared (w :: t) → w.tasks id = some task →
      (call.submission env prepared).FitFor env task := by
    rintro id call prepared task rfl hPrep hTask
    exact hPrep.fitFor (fun past hMem => (hPast past hMem).2) hTask
  refine ⟨fun id task' hTask' => ?_, fun id task hTask => ?_⟩
  · have hChange := hStep.change id
    rw [hTask'] at hChange
    obtain ⟨hId, hNew, -⟩ := hChange.keeps (hSound id) (hFit id)
    exact ⟨hId, hNew⟩
  · have hChange := hStep.change id
    rw [hTask] at hChange
    obtain ⟨task', hTask'⟩ := hChange.remains
    rw [hTask'] at hChange
    refine ⟨task', hTask', (hChange.keeps (fun x hx => ?_)
      fun call prepared x hId hPrep hx => ?_).2.2 task rfl⟩
    · exact hSound id x (hTask.trans hx)
    · exact hFit id call prepared x hId hPrep (hTask.trans hx)

/-- **Every state of a history is sound, and related to the last one.** -/
theorem history_sound (hRun : Run Legacy (WorldStep env calls) (w :: t)) :
    ∀ past ∈ w :: t, past.Sound ∧ Stable past w :=
  hRun.mem_inv_rel (fun _ => Legacy.sound) Stable.refl Stable.trans fun _ _ _ => WorldStep.keeps

theorem history_stable (hRun : Run Legacy (WorldStep env calls) h) (hLate : w :: t <:+ h)
    (hPast : w' ∈ w :: t) : Stable w' w :=
  (history_sound (hRun.of_suffix hLate) w' hPast).2

theorem history_mem_sound (hRun : Run Legacy (WorldStep env calls) h) (hMem : w ∈ h) : w.Sound := by
  cases h with
  | nil => cases hMem
  | cons head tail => exact (history_sound hRun w hMem).1

end EternalAI.Dispatch
