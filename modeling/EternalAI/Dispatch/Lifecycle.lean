import EternalAI.Dispatch.Attachments

/-!
# Dispatched tasks — the structure of every reachable task

The law of a dispatched task over all interleavings of requests, and the one
place where a natural reading of it fails: a withdrawn task keeps the relation
whose submission was awaiting review.

* `dispatched_task_structure` — the law.
* `withdrawn_task_still_in_review` — why it says nothing about the review of a
  withdrawn task.
-/

namespace EternalAI.Dispatch

open Lib List

variable {env : Env} {calls : ClientCall → Prop} {h : List World} {w w' : World}
  {ps : Procs World DispatchError} {id : Str} {task : Task}

/-- What a task looks like from outside its remark: row, relations, events and
attachments. -/
def SameTask (id : Str) (task : Task) (w : World) (w' : World) : Prop :=
  ∃ task', w'.tasks id = some task' ∧ task'.root = task.root ∧ task'.relations = task.relations ∧
    task'.events = task.events ∧ filesAt (some id) w'.files = filesAt (some id) w.files

theorem frozen_stays (hRun : Run Legacy (WorldStep env calls) h) (hTask : w.tasks id = some task)
    (hFrozen : task.root.frozen = true) {t : List World} (hEarly : w :: t <:+ h) :
    ∀ w' t', w :: t <:+ w' :: t' → w' :: t' <:+ h → SameTask id task w w' := by
  induction hRun with
  | start hs =>
    intro w' t' hSuf hEnd
    have hOne : w' :: t' = [_] := (suffix_cons_iff.mp hEnd).resolve_right fun hNil => by
      cases suffix_nil.mp hNil
    have hOne' : w :: t = [_] := (suffix_cons_iff.mp hEarly).resolve_right fun hNil => by
      cases suffix_nil.mp hNil
    obtain ⟨rfl, -⟩ := List.cons.inj (hOne.trans hOne'.symm)
    exact ⟨task, hTask, rfl, rfl, rfl, rfl⟩
  | @step s s' past hPast hStep ih =>
    intro w' t' hSuf hEnd
    rcases suffix_cons_iff.mp hEnd with hEq | hEnd
    · cases hEq
      rcases suffix_cons_iff.mp hSuf with hEq' | hSuf
      · obtain ⟨rfl, -⟩ := List.cons.inj hEq'
        exact ⟨task, hTask, rfl, rfl, rfl, rfl⟩
      · -- One more step from a state in which the task is as it was.
        obtain ⟨mid, hMid, hRoot, hRels, hEvents, hFiles⟩ := ih hSuf s past hSuf suffix_rfl
        have hFrozen' : mid.root.frozen = true := by
          rw [hRoot]
          exact hFrozen
        obtain ⟨last, hLast, hStable⟩ := (hStep.keeps (history_sound hPast)).2 id mid hMid
        obtain ⟨hRoot', hRels', hEvents'⟩ := hStable.frozen hFrozen'
        exact ⟨last, hLast, hRoot'.trans hRoot, hRels'.trans hRels, hEvents'.trans hEvents,
          (hStep.attachments hMid hFrozen').trans hFiles⟩
    · exact ih (hSuf.trans hEnd) w' t' hSuf hEnd

/-- A relation other than a collaborator's decides on the task: it is the only
one, or the lead. -/
def Relation.principal (r : Relation) : Prop := r.role = .single ∨ r.role = .lead

theorem Relation.principal.not_collaborator {r : Relation} (hr : r.principal) :
    r.role ≠ .collaborator := by
  rcases hr with hr | hr <;> simp [hr]

/--
**The structure of a dispatched task.** In every state of every interleaving
of requests, and for every task of the current model in it: an independent
task has one current relation, a `single` one; a collaborative task has one
current lead, and its current relations have different targets; the task
awaits acceptance or is completed only when all of them have submitted; unless
it was withdrawn, it is in review exactly when its single or lead relation is;
its target is that relation's; and once it is completed or withdrawn it never
changes again.
-/
theorem dispatched_task_structure (hRun : ServiceRun env calls h ps) (hw : w ∈ h)
    (hTask : w.tasks id = some task) (hModel : task.root.dispatchModelVersion = some 2) :
    (task.root.dispatchMode = some .independent ∧
        (∃ r, current task.relations = [r] ∧ r.role = .single) ∨
      task.root.dispatchMode = some .collaborative ∧
        (∃ r, (current task.relations).filter (·.role = .lead) = [r]) ∧
        ((current task.relations).map Relation.target).Nodup) ∧
    (task.root.status = .awaitingAcceptance ∨ task.root.status = .completed →
      ∀ r ∈ current task.relations, r.status = .submitted) ∧
    (task.root.status ≠ .withdrawn → ∀ r ∈ current task.relations, r.principal →
      (task.root.status = .awaitingDepartmentReview ↔ r.status = .awaitingDepartmentReview)) ∧
    (∀ r ∈ current task.relations, r.principal → r.target = task.root.target) ∧
    (task.root.status = .completed ∨ task.root.status = .withdrawn →
      ∀ w' t t', w :: t <:+ w' :: t' → w' :: t' <:+ h → SameTask id task w w') := by
  have hSteps := hRun.steps
  have hSound := (history_mem_sound hSteps hw id task hTask).2
  have hStr := hSound.structured (by rw [hModel]; simp)
  refine ⟨?_, hStr.submitted, fun hOpen r hr hPrin => ?_, fun r hr hPrin => ?_, fun hEnd => ?_⟩
  · obtain ⟨mode, hMode, hFits⟩ := hStr.mode
    cases mode with
    | independent => exact .inl ⟨hMode, hFits.current_single⟩
    | collaborative =>
      refine .inr ⟨hMode, hFits.current_lead, ?_⟩
      have hNodup := hFits.2.2
      unfold parts at hNodup
      rwa [map_map] at hNodup
  · exact hStr.reviewing hOpen r hr hPrin.not_collaborator
  · exact hStr.target r hr hPrin.not_collaborator
  · intro w' t t' hSuf hEnd'
    have hFrozen : task.root.frozen = true := by
      unfold Root.frozen
      rcases hEnd with hEnd | hEnd <;> simp [hEnd]
    exact frozen_stays hSteps hTask hFrozen (hSuf.trans hEnd') w' t' hSuf hEnd'

/-! ## A sample history -/

namespace Sample

/-- Digests that only show the version. -/
def plainEnv : Env where
  viewDigest := fun view => String.ofList (List.replicate view.version 'v')
  remarkDigest := fun _ _ => ""
  commandFingerprint := fun command => String.ofList (command.text.getD [])
  requestFingerprint := fun _ => ""
  legacyRelationId := fun _ _ => 0

def etag (version : Nat) : String :=
  "\"wolc-" ++ String.ofList (List.replicate version 'v') ++ "\""

def head : Subject where
  tenantId := "default".toList
  aiUserId := ['h']
  directoryUserId := some ['h']
  identified := by decide

def worker : Subject where
  tenantId := "default".toList
  aiUserId := ['u']
  directoryUserId := some ['u']
  identified := by decide

def directory : FreshDirectory where
  departments := [⟨['d'], ['D']⟩]
  memberships := [⟨['h'], ['d'], some ['7', '5'], by decide⟩, ⟨['u'], ['d'], none, by decide⟩]
  validUntil := 100

def clock : Clock where
  reading := fun _ => 0
  mono := fun _ _ _ => Int.le_refl _

def ident (c : Char) : Ident := ⟨[c], by simp⟩

def preparation : Preparation where
  fresh := directory
  leaders := []
  now := 0
  workObjectId := fun _ => ['t']
  relationId := fun _ _ => 1
  recheckedAt := 0

def blank (chars : List Char) (hi : Nat) : Text chars 0 hi := ⟨[], rfl, by simp⟩

def request : DispatchRequest where
  kind := .task
  title := ⟨['a'], by decide, by decide⟩
  requirement := blank _ _
  receiptRequirement := blank _ _
  dueAt := none
  reminderChoices := []
  targets := [.department (ident 'd')]
  dispatchMode := .independent
  completionMode := .confirmRequired
  leadTarget := none
  attachmentIds := []
  remindersCanonical := by decide
  remindersDue := .inr rfl
  targetsNodup := by simp
  targetsNonempty := by simp
  leadFits := rfl

def dispatch : ClientCall :=
  .dispatch {
    subject := head
    request := request
    idempotencyKey := 0
    preparation := preparation
    audited := true
    replayDirectory := some directory
    draws := ⟨clock, fun n => n⟩ }

/-- A command of the head or the worker on the task at a version, which is also
the key, the time, and the new relation's id. -/
def commandCall (subject : Subject) (version : Nat) (command : LifecycleCommand) : CommandCall where
  workObjectId := ['t']
  subject := subject
  fresh := directory
  command := command
  ifMatch := etag version
  idempotencyKey := version
  reassignment := preparation
  audited := true
  eventId := version
  now := version
  clock := clock
  newRelationId := version + 1
  newAttachmentId := fun n => n

def command (subject : Subject) (version : Nat) (c : LifecycleCommand) : ClientCall :=
  .command (commandCall subject version c)

def text (c : Char) (hc : strip pythonWhitespace [c] = [c] := by decide) : CommandText 1 2000 :=
  ⟨[c], hc, by simp⟩

def report : CommandText 1 2000 := text 'r'

def empty : World where
  tasks := fun _ => none
  files := []
  receipts := []

/-- The head assigns the task to the worker, who accepts it and submits. -/
def inReview : List ClientCall :=
  [dispatch, command head 1 (.assign 1 (ident 'u')), command worker 2 (.accept 2),
    command worker 3 (.submit 2 report [])]

section

variable (requests : List ClientCall)

/-- The history after some requests were served one after the other. -/
def history : List World :=
  Turn.inTurn (requests.map fun call => .call (call.program plainEnv .delivered)) [empty]

theorem served_run (hCalls : ∀ call ∈ requests, calls call) :
    ∃ ps, ServiceRun plainEnv calls (history requests) ps := by
  refine PoolRun.inTurn (fun _ _ hTask => nomatch hTask) fun turn hTurn => ?_
  obtain ⟨call, hCall, rfl⟩ := mem_map.mp hTurn
  exact fun _ => ⟨call, .delivered, hCalls call hCall, rfl⟩

theorem history_run : ∃ ps, ServiceRun plainEnv (fun _ => True) (history requests) ps :=
  served_run requests fun _ _ => trivial

theorem stored_mem {P : Task → Prop}
    (hStored : ∃ w ∈ (history requests).head?, ∃ task ∈ w.tasks ['t'], P task) :
    ∃ w ∈ history requests, ∃ task, w.tasks ['t'] = some task ∧ P task := by
  obtain ⟨w, hw, task, hTask, hP⟩ := hStored
  exact ⟨w, mem_of_mem_head? hw, task, hTask, hP⟩

end

end Sample

open Sample

/-- In the sample history the task and its relation are in review together. -/
theorem dispatched_task_structure_sample :
    ∃ w ∈ history inReview, ∃ task, w.tasks ['t'] = some task ∧
      task.root.status = .awaitingDepartmentReview ∧
      ∀ r ∈ current task.relations, r.principal →
        r.status = .awaitingDepartmentReview ∧ r.target = task.root.target := by
  obtain ⟨w, hw, task, hTask, hModel, hStatus⟩ := stored_mem inReview
    (P := fun task => task.root.dispatchModelVersion = some 2 ∧
      task.root.status = .awaitingDepartmentReview) (by decide +kernel)
  obtain ⟨ps, hRun⟩ := history_run inReview
  obtain ⟨-, -, hReview, hTarget, -⟩ := dispatched_task_structure hRun hw hTask hModel
  refine ⟨w, hw, task, hTask, hStatus, fun r hr hPrin => ⟨?_, hTarget r hr hPrin⟩⟩
  exact (hReview (by rw [hStatus]; simp) r hr hPrin).mp hStatus

/-- **Tasks only move on.** In every interleaving of requests the store is sound, and a task
stays, in its mode. Its version never falls, its events are only appended to, and a finished
task is as it was. -/
theorem tasks_only_move_on {t : List World} (hRun : ServiceRun env calls (w :: t) ps) :
    ∀ x ∈ w :: t, x.Sound ∧ Stable x w :=
  history_sound hRun.steps

/-- The task of the sample history goes through three statuses. -/
theorem tasks_only_move_on_sample :
    (∃ w, ∀ x ∈ history inReview, x.Sound ∧ Stable x w) ∧
    ((history inReview).map fun x => (x.tasks ['t']).map (·.root.status)).eraseDups =
      [some .awaitingDepartmentReview, some .inProgress, some .departmentPending, none] := by
  obtain ⟨ps, hRun⟩ := history_run inReview
  exact ⟨⟨_, tasks_only_move_on hRun⟩, by decide +kernel⟩

/-- **Withdrawal leaves the review open.** The head withdraws the task while the
worker's submission awaits review: the relation stays in review, the task does
not. -/
theorem withdrawn_task_still_in_review :
    ¬ ∀ (env : Env) (calls : ClientCall → Prop) (h : List World) (ps : Procs World DispatchError),
      ServiceRun env calls h ps → ∀ w ∈ h, ∀ id task, w.tasks id = some task →
        task.root.dispatchModelVersion = some 2 → ∀ r ∈ current task.relations, r.principal →
        (task.root.status = .awaitingDepartmentReview ↔ r.status = .awaitingDepartmentReview) := by
  intro hClaim
  let requests := inReview ++ [command head 4 (.withdraw (text 'w'))]
  obtain ⟨w, hw, task, hTask, hModel, hStatus, r, hr, hRole, hReview⟩ := stored_mem requests
    (P := fun task => task.root.dispatchModelVersion = some 2 ∧ task.root.status = .withdrawn ∧
      ∃ r ∈ current task.relations, r.role = .single ∧ r.status = .awaitingDepartmentReview)
    (by decide +kernel)
  obtain ⟨ps, hRun⟩ := history_run requests
  have hBoth := (hClaim _ _ _ ps hRun w hw _ task hTask hModel r hr (.inl hRole)).mpr hReview
  rw [hStatus] at hBoth
  cases hBoth

end EternalAI.Dispatch
