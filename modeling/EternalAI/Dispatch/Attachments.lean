import EternalAI.Dispatch.History

/-!
# Dispatched tasks — the attachments of a task

Attachments of all tasks share one table with the uploads that belong to no task
yet. Each operation is shown to leave the files of others alone, so that a
finished task keeps its own and an upload stays what it was.

* `handle_filesAt`, `mutatedFiles_filesAt`, `insertRecord_filesAt` — the frame
  of each transaction.
* `WorldStep.filesAt` — a step does not touch an upload.
* `WorldStep.attachments` — nor what belongs to a finished task.
-/

namespace EternalAI.Dispatch

open Lib List Script

variable {env : Env} {calls : ClientCall → Prop} {w w' : World} {t : List World} {id : Str}
  {owner : Option Str} {files files' : List Attachment} {sub : Submission} {loaded : Loaded}
  {outcome : Outcome}

/-- The files of a task, or the uploads that belong to none. -/
def filesAt (owner : Option Str) (files : List Attachment) : List Attachment :=
  files.filter (·.workObjectId = owner)

theorem filesAt_map {f : Attachment → Attachment}
    (hTask : ∀ a, (f a).workObjectId = a.workObjectId)
    (hSame : ∀ a, a.workObjectId = owner → f a = a) :
    filesAt owner (files.map f) = filesAt owner files := by
  unfold filesAt
  rw [filter_map, filter_congr (q := fun a => decide (a.workObjectId = owner))
    fun a _ => by simp [hTask]]
  refine (map_congr_left fun a ha => hSame a ?_).trans (map_id' _)
  simpa using (mem_filter.mp ha).2

theorem filesAt_append {a : Attachment} (hOther : a.workObjectId ≠ owner) :
    filesAt owner (files ++ [a]) = filesAt owner files := by
  unfold filesAt
  rw [filter_append, filter_cons_of_neg (by simpa using hOther)]
  simp

variable {q : LinkRequest}

theorem linkAll_filesAt (hOther : owner ≠ some q.workObjectId) (newId : Nat → Uuid)
    (sources : List Attachment) (n : Nat) (files : List Attachment) :
    filesAt owner (q.linkAll newId sources n files) = filesAt owner files := by
  induction sources generalizing n files with
  | nil => rfl
  | cons source rest ih =>
    rw [LinkRequest.linkAll, ih]
    unfold LinkRequest.linkOne
    split
    · refine filesAt_map (fun a => ?_) fun a ha => if_neg fun hIf => ?_
      · split <;> rfl
      · exact hOther (ha.symm.trans hIf.2.1)
    · exact filesAt_append hOther.symm

variable {table : List Relation}

theorem linkAttachments_filesAt {scope : Scope} {early late : Tick} {newId : Nat → Uuid}
    (hOther : owner ≠ some q.workObjectId)
    (hOk : linkAttachments q scope early late newId table files = .ok files') :
    filesAt owner files' = filesAt owner files := by
  obtain ⟨⟨⟩, -, hOk⟩ := bind_ok.mp hOk
  split at hOk
  · cases hOk
  · simp only [bind_ok] at hOk
    obtain ⟨⟨⟩, -, sources, -, ⟨⟩, -, ⟨⟩, -, hOk⟩ := hOk
    cases hOk
    exact linkAll_filesAt hOther newId sources 0 files

section

variable (hOther : owner ≠ some sub.workObjectId)

include hOther

theorem linkSubmitted_filesAt {relationId : Option Uuid} {visibility : Visibility}
    (hOk : linkSubmitted sub relationId visibility table files = .ok files') :
    filesAt owner files' = filesAt owner files := by
  unfold linkSubmitted at hOk
  split at hOk
  · rw [Except.ok.inj hOk]
  · exact linkAttachments_filesAt hOther hOk

theorem publishApproved_filesAt {r : Relation}
    (hOk : publishApproved sub r table files = .ok files') :
    filesAt owner files' = filesAt owner files := by
  unfold publishApproved at hOk
  split at hOk
  · unfold publishRelationResults at hOk
    obtain ⟨⟨⟩, -, hOk⟩ := bind_ok.mp hOk
    cases hOk
    refine filesAt_map (fun a => ?_) fun a ha => if_neg fun hIf => ?_
    · split <;> rfl
    · exact hOther (ha.symm.trans hIf.2.1)
  · rw [Except.ok.inj hOk]

/-- **A command leaves the attachments of other tasks alone.** -/
theorem handle_filesAt {relation : Option Relation}
    (hOk : (handle sub loaded relation files).result = .ok outcome) :
    filesAt owner outcome.files = filesAt owner files := by
  cases relation with
  | some r =>
    have hOk' : (handleRelation sub loaded r files).result = .ok outcome := hOk
    obtain ⟨published, hPub, hOk'⟩ := result_bind_ok.mp hOk'
    obtain ⟨table, -, hOk'⟩ := result_bind_ok.mp hOk'
    obtain ⟨linked, hLink, hOk'⟩ := result_bind_ok.mp hOk'
    obtain ⟨reopened, -, hOk'⟩ := result_bind_ok.mp hOk'
    obtain ⟨status, -, hEnd⟩ := result_bind_ok.mp hOk'
    cases hEnd
    rw [result_ofExcept] at hPub hLink
    exact (linkSubmitted_filesAt hOther hLink).trans (publishApproved_filesAt hOther hPub)
  | none =>
    have hHandled := handleRoot_cases hOk
    generalize (handleRoot sub loaded files).rows = rows at hHandled
    cases hHandled with
    | summary _ _ hLink => exact linkSubmitted_filesAt hOther hLink
    | _ => rfl

end

variable {failed : DispatchError}

/-- A command on a finished task is a replay, and one on another task leaves
the attachments alone. -/
theorem commandTask_filesAt {stored : Option Task} {out : MutationResult × Task × List Attachment}
    (hFrozen : owner = some sub.workObjectId → ∀ task, stored = some task → task.root.frozen = true)
    (hRun : (commandTask env sub stored files).run checkRow failed = .ok out) :
    filesAt owner out.2.2 = filesAt owner files := by
  obtain ⟨task, _, hStored, hCase, -⟩ := commandTask_ok hRun
  cases hCase with
  | replayed => rfl
  | mutated _ hAdmit hMut =>
    refine handle_filesAt (fun hId => ?_) hMut.handled
    have hClosed := hFrozen hId task hStored
    rw [(checkAdmission_ok hAdmit).1] at hClosed
    cases hClosed

variable {task : Task}

theorem mutatedFiles_filesAt {q : FileSubmission} {target : Option Attachment}
    (hOther : owner ≠ some q.workObjectId) (hOk : mutatedFiles q task target files = .ok files') :
    filesAt owner files' = filesAt owner files := by
  unfold mutatedFiles at hOk
  split at hOk
  · exact linkAttachments_filesAt hOther hOk
  · cases hOk
  · split at hOk
    · cases hOk
    · cases hOk
      refine filesAt_map (fun a => ?_) fun a ha => if_neg fun hIf => ?_
      · split <;> rfl
      · exact hOther (ha.symm.trans hIf.2.1)

variable {p : PreparedDispatch} {draws : Draws}

theorem insertRecord_filesAt {record : Root × List Relation}
    (hTaken : ∀ id, owner = some id → w.tasks id ≠ none)
    (hRun : (w.insertRecord p draws record).run checkRow failed = .ok w') :
    filesAt owner w'.files = filesAt owner w.files ∧
      ∀ id, owner = some id → w'.tasks id ≠ none := by
  obtain ⟨hFree, -, -, -, hTasks⟩ := insertRecord_ok hRun
  have hOther : owner ≠ some record.1.workObjectId := fun hId => hTaken _ hId hFree
  refine ⟨?_, fun id hId => ?_⟩
  rotate_left
  · have hNe : id ≠ record.1.workObjectId := fun hEq => hOther (hEq ▸ hId)
    rw [hTasks, World.put_tasks_of_ne _ _ hNe]
    exact hTaken id hId
  obtain ⟨⟨⟩, -, hRun⟩ := run_bind_ok.mp hRun
  obtain ⟨⟨⟩, -, hRun⟩ := run_bind_ok.mp hRun
  obtain ⟨table, -, hRun⟩ := run_bind_ok.mp hRun
  obtain ⟨linked, hLink, hEnd⟩ := run_bind_ok.mp hRun
  cases hEnd
  rw [run_ofExcept] at hLink
  split at hLink
  · rw [← Except.ok.inj hLink]
  · exact linkAttachments_filesAt hOther hLink

theorem insertRecords_filesAt (records : List (Root × List Relation))
    (hTaken : ∀ id, owner = some id → w.tasks id ≠ none)
    (hRun : (foldScript (fun w record => w.insertRecord p draws record) records w).run
      checkRow failed = .ok w') : filesAt owner w'.files = filesAt owner w.files := by
  induction records generalizing w with
  | nil => rw [← Except.ok.inj hRun]
  | cons record rest ih =>
    obtain ⟨mid, hOne, hRest⟩ := run_bind_ok.mp
      (show ((w.insertRecord p draws record) >>= _).run checkRow failed = _ from hRun)
    obtain ⟨hSame, hStill⟩ := insertRecord_filesAt hTaken hOne
    exact (ih hStill hRest).trans hSame

/-- What belongs to nobody a step may write to stays, up to new uploads. -/
theorem WorldStep.filesAt (hTaken : ∀ id, owner = some id → ∃ task, w.tasks id = some task ∧
    task.root.frozen = true) (hStep : WorldStep env calls (w :: t) w') :
    Dispatch.filesAt owner w.files <+: Dispatch.filesAt owner w'.files ∧
      (owner.isSome → Dispatch.filesAt owner w'.files = Dispatch.filesAt owner w.files) := by
  have hHeld : ∀ id, owner = some id → w.tasks id ≠ none := by
    intro id hId hNone
    obtain ⟨task, hTask, -⟩ := hTaken id hId
    rw [hNone] at hTask
    cases hTask
  have hKept : Dispatch.filesAt owner w'.files = Dispatch.filesAt owner w.files →
      Dispatch.filesAt owner w.files <+: Dispatch.filesAt owner w'.files ∧
        (owner.isSome → Dispatch.filesAt owner w'.files = Dispatch.filesAt owner w.files) :=
    fun hEq => ⟨hEq ▸ prefix_rfl, fun _ => hEq⟩
  cases hStep with
  | same => exact hKept rfl
  | upload hUp =>
    obtain ⟨file, hNone, rfl⟩ := hUp
    refine ⟨?_, fun hSome => filesAt_append ?_⟩
    · exact (prefix_append ..).filter _
    · rw [hNone]
      rintro rfl
      cases hSome
  | dispatch hCall hPrep hRun =>
    rcases insertPrepared_ok hRun with rfl | ⟨inserted, hIns, -, hFiles⟩
    · exact hKept rfl
    · rw [hFiles] at hKept ⊢
      exact hKept (insertRecords_filesAt _ hHeld hIns)
  | command hCall hPrep hRun =>
    obtain ⟨out, hOut, -, rfl⟩ := command_ok hRun
    refine hKept (commandTask_filesAt (fun hId x hx => ?_) hOut)
    obtain ⟨task, hTask, hFrozen⟩ := hTaken _ hId
    rw [hTask] at hx
    rw [← Option.some.inj hx]
    exact hFrozen
  | files hCall hRun =>
    rcases mutateFiles_ok hRun with ⟨-, hFiles⟩ | ⟨x, target, hStored, hOpen, -, -, hFiles⟩
    · exact hKept (by rw [hFiles])
    · -- Files of a finished task cannot be changed.
      refine hKept (mutatedFiles_filesAt (fun hId => ?_) hFiles)
      obtain ⟨task, hTask, hFrozen⟩ := hTaken _ hId
      rw [hTask] at hStored
      rw [← Option.some.inj hStored, hFrozen] at hOpen
      cases hOpen
  | remark hCall hRun =>
    rcases editRemark_ok hRun with rfl | ⟨x, remark, history, -, rfl⟩
    · exact hKept rfl
    · exact hKept rfl

/-- **What belongs to a finished task stays.** -/
theorem WorldStep.attachments (hTask : w.tasks id = some task) (hFrozen : task.root.frozen = true)
    (hStep : WorldStep env calls (w :: t) w') :
    Dispatch.filesAt (some id) w'.files = Dispatch.filesAt (some id) w.files := by
  refine (WorldStep.filesAt (fun other hOther => ?_) hStep).2 rfl
  rw [← Option.some.inj hOther]
  exact ⟨task, hTask, hFrozen⟩

end EternalAI.Dispatch
