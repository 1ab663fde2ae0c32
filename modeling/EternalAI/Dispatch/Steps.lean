import EternalAI.Dispatch.Prepared

/-!
# Dispatched tasks — the steps of the store

Whatever requests are interleaved, the store moves by whole transactions. Each
of them works with what its request has prepared from an earlier state of the
store, and this is all that has to be known about the service.

* `WorldStep` — one transaction, with the request behind it.
* `ServiceRun.steps` — the states of every interleaving are a run of such
  steps.
* `TaskChange` — what a step does to one task.
-/

namespace EternalAI.Dispatch

open Lib List Script Safe

variable {env : Env} {calls : ClientCall → Prop} {w w' : World} {t h : List World}

/-- What a command was prepared from: the task as it was at some earlier time. -/
def PreparedFrom (env : Env) (call : CommandCall) (prepared : Prepared) (h : List World) : Prop :=
  ∃ past ∈ h, ∃ task member, past.tasks call.workObjectId = some task ∧
    prepareCommand env call member task.root = .ok prepared

inductive WorldStep (env : Env) (calls : ClientCall → Prop) : List World → World → Prop
  | same {w : World} {t : List World} : WorldStep env calls (w :: t) w
  | upload {w w' : World} {t : List World} : Uploaded w w' → WorldStep env calls (w :: t) w'
  | dispatch {w w' : World} {t : List World} {call : DispatchCall} {prepared : PreparedDispatch}
      {result : DispatchResult} : calls (.dispatch call) →
      prepareDispatch env call.subject call.request call.idempotencyKey call.preparation =
        .ok prepared →
      (w.insertPrepared env prepared call.draws).run checkRow .workObjectDispatchFailed =
        .ok (result, w') → WorldStep env calls (w :: t) w'
  | command {w w' : World} {t : List World} {call : CommandCall} {prepared : Prepared}
      {result : MutationResult} : calls (.command call) → PreparedFrom env call prepared (w :: t) →
      (w.command env (call.submission env prepared)).run checkRow .workObjectLifecycleFailed =
        .ok (result, w') → WorldStep env calls (w :: t) w'
  | files {w w' : World} {t : List World} {sub : FileSubmission} {result : String × Bool} :
      calls (.files sub) →
      (w.mutateFiles env sub).run checkRow .workObjectStoreUnavailable = .ok (result, w') →
      WorldStep env calls (w :: t) w'
  | remark {w w' : World} {t : List World} {sub : RemarkSubmission} {result : Remark × Bool} :
      calls (.remark sub) →
      (w.editRemark env sub).run checkRow .workObjectStoreUnavailable = .ok (result, w') →
      WorldStep env calls (w :: t) w'

/-! ## The service takes only such steps -/

variable {call : CommandCall}

theorem PreparedFrom.later {prepared : Prepared} {h' : List World}
    (hPrep : PreparedFrom env call prepared h) (hExt : h <:+ h') :
    PreparedFrom env call prepared h' := by
  obtain ⟨past, hMem, hRest⟩ := hPrep
  exact ⟨past, hExt.subset hMem, hRest⟩

variable {failed : DispatchError} {ack : Ack} {α : Type}

theorem transaction_safe {tx : World → Tx (α × World)}
    (hTx : ∀ w t a w', h <:+ w :: t → (tx w).run checkRow failed = .ok (a, w') →
      WorldStep env calls (w :: t) w') :
    Safe Legacy (WorldStep env calls) (fun _ _ => True) (transaction ack failed tx) h :=
  Safe.transactWith (fun _ _ => .same) (fun _ _ _ _ _ => trivial)
    fun w t hExt _ a w' hRun => ⟨hTx w t a w' hExt hRun, trivial⟩

theorem read_safe {f : World → α} {Q : α → List World → Prop} (hQ : ∀ w t, Q (f w) (w :: w :: t)) :
    Safe Legacy (WorldStep env calls) Q (Prog.read f : Prog World DispatchError α) h :=
  Safe.read (fun _ _ => .same) fun w t _ _ => hQ w t

theorem commandLifecycleForPrincipal_safe (hCall : calls (.command call)) :
    Safe Legacy (WorldStep env calls) (fun _ _ => True)
      (commandLifecycleForPrincipal env call ack) h := by
  refine ofExcept_seq fun member _ => ?_
  refine Safe.seq (P := fun stored h' => ∃ past ∈ h', stored = past.tasks call.workObjectId)
    (read_safe fun w t => ⟨w, mem_cons_self, rfl⟩) ?_
  rintro stored h₁ - ⟨past, hPast, rfl⟩
  refine ofExcept_seq fun task hLoad => ofExcept_seq fun prepared hPrep => ?_
  have hFrom : PreparedFrom env call prepared h₁ :=
    ⟨past, hPast, task, member, (loadManualRoot_ok.mp hLoad).1, hPrep⟩
  refine Safe.seq (P := fun _ _ => True) (read_safe fun _ _ => trivial) ?_
  rintro again h₂ hExt -
  refine ofExcept_seq fun existing _ => require_seq fun _ => ?_
  refine ofExcept_seq fun _ _ => transaction_safe fun w t result w' hExt' hRun => ?_
  exact .command hCall (hFrom.later (hExt.trans hExt')) hRun

variable {call : DispatchCall}

theorem answerReceipt_safe {receipt : Receipt} :
    Safe Legacy (WorldStep env calls) (fun _ _ => True) (answerReceipt env call receipt) h := by
  refine require_seq fun _ => Safe.seq (P := fun _ _ => True)
    (read_safe fun _ _ => trivial) ?_
  intro tried h' _ _
  split
  · exact Safe.seq (P := fun _ _ => True) (read_safe fun _ _ => trivial) fun _ _ _ _ =>
      Safe.ofExcept fun _ _ => trivial
  · exact Safe.ofExcept fun _ _ => trivial

theorem dispatchForPrincipal_safe (hCall : calls (.dispatch call)) :
    Safe Legacy (WorldStep env calls) (fun _ _ => True) (dispatchForPrincipal env call ack) h := by
  refine Safe.seq (P := fun _ _ => True) (read_safe fun _ _ => trivial) ?_
  intro found h₁ _ _
  cases found with
  | some receipt => exact answerReceipt_safe
  | none =>
    refine ofExcept_seq fun prepared hPrep => Safe.ite (fun _ => ?_) fun _ => ?_
    · exact transaction_safe fun w t result w' _ hRun => .dispatch hCall hPrep hRun
    · refine Safe.seq (P := fun _ _ => True) (read_safe fun _ _ => trivial) ?_
      intro winner h₂ _ _
      cases winner with
      | some receipt => exact answerReceipt_safe
      | none => exact trivial

theorem program_safe {call : ClientCall} (hCall : calls call) :
    Safe Legacy (WorldStep env calls) (fun _ _ => True) (call.program env ack) h := by
  cases call with
  | dispatch call => exact (dispatchForPrincipal_safe hCall).ended
  | command call => exact (commandLifecycleForPrincipal_safe hCall).ended
  | files sub => exact (transaction_safe fun _ _ _ _ _ hRun => .files hCall hRun).ended
  | remark sub => exact (transaction_safe fun _ _ _ _ _ hRun => .remark hCall hRun).ended

/-- **Interleavings of requests are runs of transactions.** -/
theorem ServiceRun.steps {ps : Procs World DispatchError} (hRun : ServiceRun env calls h ps) :
    Run Legacy (WorldStep env calls) h := by
  refine (PoolRun.refines (fun _ _ _ => .upload) (fun _ _ _ => .same) ?_ hRun).1
  rintro i p ⟨call, ack, hCall, rfl⟩ h' _
  exact program_safe hCall

/-! ## What the transactions do to the store -/

variable {sub : Submission}

theorem command_ok {result : MutationResult}
    (hRun : (w.command env sub).run checkRow failed = .ok (result, w')) :
    ∃ out, (commandTask env sub (w.tasks sub.workObjectId) w.files).run checkRow failed = .ok out ∧
      result = out.1 ∧ w' = { w.put sub.workObjectId out.2.1 with files := out.2.2 } := by
  obtain ⟨out, hOut, hEnd⟩ := run_bind_ok.mp hRun
  cases hEnd
  exact ⟨out, hOut, rfl, rfl⟩

theorem editRemark_ok {sub : RemarkSubmission} {result : Remark × Bool}
    (hRun : (w.editRemark env sub).run checkRow failed = .ok (result, w')) :
    w' = w ∨ ∃ task remark history, w.tasks sub.workObjectId = some task ∧
      w' = w.put sub.workObjectId { task with remark := remark, remarkHistory := history } := by
  unfold World.editRemark at hRun
  simp only [run_bind_ok] at hRun
  obtain ⟨task, hLoad, -, -, -, -, -, -, hRun⟩ := hRun
  rw [run_ofExcept] at hLoad
  cases hPrior : priorRemark sub task with
  | some prior =>
    rw [hPrior] at hRun
    obtain ⟨-, -, hEnd⟩ := run_bind_ok.mp hRun
    exact .inl (Prod.mk.inj (Except.ok.inj hEnd)).2.symm
  | none =>
    rw [hPrior] at hRun
    obtain ⟨-, -, hRun⟩ := run_bind_ok.mp hRun
    obtain ⟨-, -, hEnd⟩ := run_bind_ok.mp hRun
    exact .inr ⟨task, _, _, (loadManualRoot_ok.mp hLoad).1,
      (Prod.mk.inj (Except.ok.inj hEnd)).2.symm⟩

variable {stored : Option Task}

theorem loadLifecycleView_ok {scope : Scope} {early late : Tick} {loaded : Task × LifecycleView}
    (hOk : loadLifecycleView env scope early late stored = .ok loaded) :
    loadManualRoot scope early stored = .ok loaded.1 ∧ loaded.2 =
      projectLifecycle loaded.1.root (viewRelations env scope late loaded.1) scope := by
  unfold loadLifecycleView at hOk
  cases hLoad : loadManualRoot scope early stored with
  | ok task =>
    rw [hLoad] at hOk
    cases hOk
    exact ⟨rfl, rfl⟩
  | error e =>
    rw [hLoad] at hOk
    cases hOk

theorem claim_ok {sub : FileSubmission} {claimed : Bool × World} (hOk : w.claim sub = .ok claimed) :
    claimed.2.tasks = w.tasks ∧ claimed.2.files = w.files := by
  unfold World.claim at hOk
  simp only at hOk
  repeat' split at hOk
  all_goals cases hOk
  all_goals exact ⟨rfl, rfl⟩

theorem mutateFiles_ok {sub : FileSubmission} {result : String × Bool}
    (hRun : (w.mutateFiles env sub).run checkRow failed = .ok (result, w')) :
    (w'.tasks = w.tasks ∧ w'.files = w.files) ∨
      ∃ task target, w.tasks sub.workObjectId = some task ∧ task.root.frozen = false ∧
        (task.root.touched sub.now).check = true ∧
        w'.tasks = (w.put sub.workObjectId { task with root := task.root.touched sub.now }).tasks ∧
        mutatedFiles sub task target w.files = .ok w'.files := by
  obtain ⟨loaded, hLoad, hRun⟩ := run_bind_ok.mp hRun
  obtain ⟨target, -, hRun⟩ := run_bind_ok.mp hRun
  obtain ⟨-, -, hRun⟩ := run_bind_ok.mp hRun
  obtain ⟨claimed, hClaim, hRun⟩ := run_bind_ok.mp hRun
  obtain ⟨after, hAfter, hRun⟩ := run_bind_ok.mp hRun
  obtain ⟨-, -, hRun⟩ := run_bind_ok.mp hRun
  obtain ⟨present, -, hRun⟩ := run_bind_ok.mp hRun
  obtain ⟨⟨⟩, -, hEnd⟩ := run_bind_ok.mp hRun
  have hLast : after = w' := congrArg Prod.snd (Except.ok.inj hEnd)
  subst hLast
  rw [run_ofExcept] at hLoad hClaim
  obtain ⟨hRoot, hView⟩ := loadLifecycleView_ok hLoad
  have hStored := (loadManualRoot_ok.mp hRoot).1
  obtain ⟨hTasks, hFiles⟩ := claim_ok hClaim
  unfold World.applyClaimed at hAfter
  cases hReplay : claimed.1 with
  | true =>
    rw [hReplay] at hAfter
    cases hAfter
    exact .inl ⟨hTasks, hFiles⟩
  | false =>
    rw [hReplay] at hAfter
    obtain ⟨⟨⟩, hCheck, hAfter⟩ := run_bind_ok.mp hAfter
    obtain ⟨files, hNew, hAfter⟩ := run_bind_ok.mp hAfter
    obtain ⟨⟨⟩, hRow, hAfter⟩ := run_bind_ok.mp hAfter
    cases hAfter
    rw [run_ofExcept] at hCheck hNew
    refine .inr ⟨loaded.1, target, hStored, ?_, run_write_ok.mp hRow, ?_, hFiles ▸ hNew⟩
    · have hOpen := (ensure_bind_ok.mp hCheck).1
      rw [hView] at hOpen
      simpa [projectLifecycle] using hOpen
    · show Function.update claimed.2.tasks _ _ = _
      rw [hTasks]
      rfl

/-! ## Insertion of a dispatch -/

def Task.fresh (record : Root × List Relation) : Task where
  root := record.1
  relations := record.2
  events := []
  remark := none
  remarkHistory := []

variable {p : PreparedDispatch} {draws : Draws}

theorem insertRecord_ok {record : Root × List Relation}
    (hRun : (w.insertRecord p draws record).run checkRow failed = .ok w') :
    w.tasks record.1.workObjectId = none ∧ record.1.check = true ∧
      (∀ r ∈ record.2, r.check = true) ∧ Keyed record.2 ∧
      w'.tasks = (w.put record.1.workObjectId (.fresh record)).tasks := by
  obtain ⟨⟨⟩, hFree, hRun⟩ := run_bind_ok.mp hRun
  obtain ⟨⟨⟩, hRow, hRun⟩ := run_bind_ok.mp hRun
  obtain ⟨table, hIns, hRun⟩ := run_bind_ok.mp hRun
  obtain ⟨files, -, hEnd⟩ := run_bind_ok.mp hRun
  obtain ⟨hOk, hRows⟩ := run_eq_ok hIns
  obtain ⟨hTable, hKeyed⟩ := result_insertRelations hOk
  have hCovered := Covered.insertRelations record.2 table hOk
  subst hTable
  refine ⟨run_require_ok.mp hFree, run_write_ok.mp hRow, fun r hr => ?_,
    hKeyed nodup_nil, ?_⟩
  · rcases hCovered r hr with hOld | hNew
    · cases hOld
    · exact hRows _ hNew
  · cases hEnd
    rfl

theorem insertRecords_ok (records : List (Root × List Relation)) (id : Str)
    (hRun : (foldScript (fun w record => w.insertRecord p draws record) records w).run
      checkRow failed = .ok w') : w'.tasks id = w.tasks id ∨ w.tasks id = none ∧ ∃ record ∈ records,
      record.1.workObjectId = id ∧ record.1.check = true ∧ (∀ r ∈ record.2, r.check = true) ∧
      Keyed record.2 ∧ w'.tasks id = some (.fresh record) := by
  induction records generalizing w with
  | nil =>
    cases hRun
    exact .inl rfl
  | cons record rest ih =>
    obtain ⟨mid, hOne, hRest⟩ := run_bind_ok.mp
      (show ((w.insertRecord p draws record) >>= _).run checkRow failed = _ from hRun)
    obtain ⟨hFree, hRoot, hRels, hKeyed, hTasks⟩ := insertRecord_ok hOne
    by_cases hId : id = record.1.workObjectId
    · subst hId
      have hMid : mid.tasks record.1.workObjectId = some (.fresh record) := by
        rw [hTasks, World.put_tasks_self]
      rcases ih hRest with hSame | ⟨hNone, -⟩
      · exact .inr ⟨hFree, record, mem_cons_self, rfl, hRoot, hRels, hKeyed,
          hSame.trans hMid⟩
      · rw [hMid] at hNone
        cases hNone
    · have hMid : mid.tasks id = w.tasks id := by
        rw [hTasks, World.put_tasks_of_ne _ _ hId]
      rcases ih hRest with hSame | ⟨hNone, x, hx, hNew⟩
      · exact .inl (hSame.trans hMid)
      · exact .inr ⟨hMid ▸ hNone, x, mem_cons_of_mem _ hx, hNew⟩

theorem insertPrepared_ok {result : DispatchResult}
    (hRun : (w.insertPrepared env p draws).run checkRow failed = .ok (result, w')) :
    w' = w ∨ ∃ inserted, (foldScript (fun w record => w.insertRecord p draws record)
      p.records w).run checkRow failed = .ok inserted ∧ w'.tasks = inserted.tasks ∧
      w'.files = inserted.files := by
  unfold World.insertPrepared at hRun
  simp only [run_bind_ok] at hRun
  obtain ⟨⟨⟩, -, ⟨⟩, -, hRun⟩ := hRun
  cases hReceipt : w.receipt p.scope.tenantId p.scope.aiUserId p.idempotencyKey with
  | some winner =>
    rw [hReceipt] at hRun
    obtain ⟨⟨⟩, -, hRun⟩ := run_bind_ok.mp hRun
    obtain ⟨answer, -, hEnd⟩ := run_bind_ok.mp hRun
    exact .inl (congrArg Prod.snd (Except.ok.inj hEnd)).symm
  | none =>
    rw [hReceipt] at hRun
    obtain ⟨inserted, hIns, hRun⟩ := run_bind_ok.mp hRun
    obtain ⟨items, -, hRun⟩ := run_bind_ok.mp hRun
    obtain ⟨⟨⟩, -, hEnd⟩ := run_bind_ok.mp hRun
    have hLast := congrArg Prod.snd (Except.ok.inj hEnd)
    refine .inr ⟨inserted, hIns, ?_, ?_⟩
    · exact (congrArg World.tasks hLast).symm
    · exact (congrArg World.files hLast).symm

/-! ## What a step does to one task -/

/-- What a step of the store does to the task under an id. -/
inductive TaskChange (env : Env) (calls : ClientCall → Prop) (h : List World) (id : Str) :
    Option Task → Option Task → Prop
  | same {stored : Option Task} : TaskChange env calls h id stored stored
  | created {call : DispatchCall} {record : Root × List Relation} : calls (.dispatch call) →
      record ∈ preparedRecords call.subject call.request call.preparation →
      record.1.Reloads → record.1.workObjectId = id → record.1.check = true →
      (∀ r ∈ record.2, r.check = true) → Keyed record.2 →
      TaskChange env calls h id none (some (.fresh record))
  | remarked {task : Task} {remark : Option Remark} {history : List RemarkEntry} :
      TaskChange env calls h id (some task)
        (some { task with remark := remark, remarkHistory := history })
  | touched {task : Task} {now : Time} : task.root.frozen = false →
      (task.root.touched now).check = true →
      TaskChange env calls h id (some task) (some { task with root := task.root.touched now })
  | commanded {task : Task} {files : List Attachment} {call : CommandCall} {prepared : Prepared}
      {out : MutationResult × Task × List Attachment} : calls (.command call) →
      call.workObjectId = id → PreparedFrom env call prepared h →
      (commandTask env (call.submission env prepared) (some task) files).run checkRow
        .workObjectLifecycleFailed = .ok out →
      TaskChange env calls h id (some task) (some out.2.1)

theorem commandTask_stored {files : List Attachment} {out : MutationResult × Task × List Attachment}
    (hRun : (commandTask env sub stored files).run checkRow failed = .ok out) :
    ∃ task, stored = some task :=
  (commandTask_ok hRun).imp fun _ ⟨_, hTask, _⟩ => hTask

theorem put_change {key id : Str} {task task' : Task} (hStored : w.tasks key = some task)
    (hChange : key = id → TaskChange env calls h id (some task) (some task')) :
    TaskChange env calls h id (w.tasks id) ((w.put key task').tasks id) := by
  by_cases hId : id = key
  · subst hId
    rw [World.put_tasks_self, hStored]
    exact hChange rfl
  · rw [World.put_tasks_of_ne _ _ hId]
    exact .same

/-- **Every step changes a task in one of these ways.** -/
theorem WorldStep.change (hStep : WorldStep env calls (w :: t) w') (id : Str) :
    TaskChange env calls (w :: t) id (w.tasks id) (w'.tasks id) := by
  cases hStep with
  | same => exact .same
  | upload hUp =>
    obtain ⟨file, -, rfl⟩ := hUp
    exact .same
  | dispatch hCall hPrep hRun =>
    obtain ⟨hRecords, hReloads⟩ := prepareDispatch_ok hPrep
    rcases insertPrepared_ok hRun with rfl | ⟨inserted, hIns, hTasks, -⟩
    · exact .same
    · rw [hTasks]
      rcases insertRecords_ok _ id hIns with hSame | ⟨hNone, record, hMem, hId, hRoot, hRels,
        hKeyed, hNew⟩
      · rw [hSame]
        exact .same
      · rw [hNone, hNew]
        exact .created hCall (hRecords ▸ hMem) (hReloads record hMem) hId hRoot hRels hKeyed
  | command hCall hPrep hRun =>
    obtain ⟨out, hOut, -, rfl⟩ := command_ok hRun
    obtain ⟨task, hStored⟩ := commandTask_stored hOut
    rw [hStored] at hOut
    exact put_change hStored fun hId => .commanded hCall hId hPrep hOut
  | files hCall hRun =>
    rcases mutateFiles_ok hRun with ⟨hTasks, -⟩ | ⟨task, target, hStored, hOpen, hCheck, hTasks, -⟩
    · rw [hTasks]
      exact .same
    · rw [hTasks]
      exact put_change hStored fun _ => .touched hOpen hCheck
  | remark hCall hRun =>
    rcases editRemark_ok hRun with rfl | ⟨task, remark, history, hStored, rfl⟩
    · exact .same
    · exact put_change hStored fun _ => .remarked

end EternalAI.Dispatch
