import EternalAI.Dispatch.Tables

/-!
# Dispatched tasks — what an accepted command has passed

The lifecycle transaction read backwards: from the fact that it returned, the
facts it has established on the way. Every later argument about a command
starts from these lemmas and not from the code.

* `commandTask_cases` — a command that returned is a replay, or a mutation.
* `Mutation` — the stages of a mutation.
* `selected_some`, `selected_none`, `mem_relationActions`, `mem_offered_root` —
  which commands get as far as their handler.
* `handleRelation_ok`, `handleRoot_cases` — what the handlers do.
-/

namespace EternalAI.Dispatch

open Lib List Script

variable {env : Env} {sub : Submission} {task : Task} {files : List Attachment}
  {loaded : Loaded} {outcome : Outcome} {r : Relation}

/-! ## Loading -/

variable {scope : Scope} {tick : Tick} {stored : Option Task}

theorem loadManualRoot_ok :
    loadManualRoot scope tick stored = .ok task ↔
      stored = some task ∧ rootVisible scope tick task = true ∧ task.root.Reloads := by
  unfold loadManualRoot Root.Reloads
  cases stored with
  | none => simp
  | some t =>
    by_cases hVis : rootVisible scope tick t = true
    · simp only [hVis, if_true]
      cases hVal : t.root.validateDispatch with
      | ok u =>
        constructor
        · intro hEq
          cases hEq
          exact ⟨rfl, hVis, hVal⟩
        · rintro ⟨hEq, -, -⟩
          rw [Option.some.inj hEq]
      | error m =>
        constructor
        · intro hEq
          cases hEq
        · rintro ⟨hEq, -, hOk⟩
          rw [← Option.some.inj hEq, hVal] at hOk
          cases hOk
    · simp only [hVis]
      constructor
      · intro hEq
        cases hEq
      · rintro ⟨hEq, hVis', -⟩
        rw [← Option.some.inj hEq] at hVis'
        exact absurd hVis' hVis

theorem recheckScope_ok {u : Unit} :
    recheckScope scope tick = .ok u ↔ ∀ limit ∈ scope.validUntil, tick ≤ limit := by
  unfold recheckScope
  cases scope.validUntil with
  | none => simp
  | some limit =>
    by_cases hLate : limit < tick
    · simp [hLate]
    · simpa [hLate] using Int.not_lt.mp hLate

/-! ## The stages of the transaction -/

/-- The stages of a mutation, each with what it produced. -/
structure Mutation (env : Env) (sub : Submission) (task : Task) (files : List Attachment)
    (loaded : Loaded) (selected : Option Relation × LifecycleOperation) (outcome : Outcome) :
    Prop where
  prepared : (prepare env sub task).result = .ok loaded
  chosen : selectRelation sub.command loaded.relations = .ok selected
  offered : selected.2 ∈ offered sub loaded selected.1
  handled : (handle sub loaded selected.1 files).result = .ok outcome
  fresh : recheckScope sub.scope (sub.clock.reading 8) = .ok ()

def mutated (sub : Submission) (task : Task) (loaded : Loaded) (relation : Option Relation)
    (outcome : Outcome) : Task :=
  { task with
    root := outcome.finalRoot sub loaded.root
    relations := outcome.table
    events := task.events ++ [outcome.event sub loaded.root relation] }

variable {out : MutationResult × Task × List Attachment}

/-- What a command that returned has done to a task: it was answered from the
history, or carried out on a task that is not finished and whose tag was the
expected one. -/
inductive Commanded (env : Env) (sub : Submission) (task : Task) (files : List Attachment) :
    MutationResult × Task × List Attachment → List Row → Prop
  | replayed {prior : Event} : priorEvent sub task = some prior →
      Commanded env sub task files (⟨prior, true⟩, task, files) []
  | mutated {loaded : Loaded} {selected : Option Relation × LifecycleOperation}
      {outcome : Outcome} : priorEvent sub task = none → checkAdmission env sub task = .ok () →
      Mutation env sub task files loaded selected outcome →
      Commanded env sub task files
        (⟨outcome.event sub loaded.root selected.1, false⟩,
          mutated sub task loaded selected.1 outcome, outcome.files)
        ((prepare env sub task).rows ++ (handle sub loaded selected.1 files).rows ++
          [.root (outcome.finalRoot sub loaded.root),
            .event (outcome.event sub loaded.root selected.1)])

theorem mutate_ok (hNone : priorEvent sub task = none)
    (hAdmit : checkAdmission env sub task = .ok ())
    (hOk : (mutate env sub task files).result = .ok out) :
    Commanded env sub task files out (mutate env sub task files).rows := by
  unfold mutate at hOk ⊢
  obtain ⟨loaded, hPrep, hOk⟩ := result_bind_ok.mp hOk
  obtain ⟨selected, hSel, hOk⟩ := result_bind_ok.mp hOk
  obtain ⟨⟨⟩, hReq, hOk⟩ := result_bind_ok.mp hOk
  obtain ⟨outcome, hHandle, hOk⟩ := result_bind_ok.mp hOk
  obtain ⟨⟨⟩, hFresh, hOk⟩ := result_bind_ok.mp hOk
  cases hOk
  rw [rows_bind_ok hPrep, rows_bind_ok hSel, rows_bind_ok hReq,
    rows_bind_ok hHandle, rows_bind_ok hFresh]
  rw [result_ofExcept] at hSel hFresh
  have hMut := Commanded.mutated hNone hAdmit
    ⟨hPrep, hSel, result_require_ok.mp hReq, hHandle, hFresh⟩
  simpa [rows_bind, mutated] using hMut

theorem replay_ok {prior : Event} {result : MutationResult}
    (hReplay : replay sub task prior = .ok result) : result = ⟨prior, true⟩ := by
  unfold replay at hReplay
  repeat' split at hReplay
  all_goals cases hReplay
  rfl

/-- **A command that returned is a replay, or a mutation.** -/
theorem commandTask_cases (hOk : (commandTask env sub stored files).result = .ok out) :
    ∃ task, stored = some task ∧
      Commanded env sub task files out (commandTask env sub stored files).rows := by
  unfold commandTask at hOk ⊢
  simp only [result_bind_ok] at hOk
  obtain ⟨task, hLoad, ⟨⟩, hFresh, hOk⟩ := hOk
  rw [rows_bind_ok hLoad, rows_bind_ok hFresh]
  rw [result_ofExcept] at hLoad
  refine ⟨task, (loadManualRoot_ok.mp hLoad).1, ?_⟩
  simp only [rows_ofExcept, nil_append]
  cases hPrior : priorEvent sub task with
  | some prior =>
    rw [hPrior] at hOk
    obtain ⟨result, hReplay, hOk⟩ := result_bind_ok.mp hOk
    cases hOk
    rw [rows_bind_ok hReplay, rows_ofExcept]
    rw [result_ofExcept] at hReplay
    rw [replay_ok hReplay]
    exact .replayed hPrior
  | none =>
    rw [hPrior] at hOk
    obtain ⟨⟨⟩, hAdmit, hOk⟩ := result_bind_ok.mp hOk
    rw [rows_bind_ok hAdmit, rows_ofExcept, nil_append]
    rw [result_ofExcept] at hAdmit
    exact mutate_ok hPrior hAdmit hOk

theorem commandTask_ok {failed : DispatchError}
    (hRun : (commandTask env sub stored files).run checkRow failed = .ok out) :
    ∃ task rows, stored = some task ∧ Commanded env sub task files out rows ∧
      ∀ row ∈ rows, checkRow row = true := by
  obtain ⟨hOk, hRows⟩ := run_eq_ok hRun
  obtain ⟨task, hStored, hCase⟩ := commandTask_cases hOk
  exact ⟨task, _, hStored, hCase, hRows⟩

/-- A command is admitted only to a task that is not finished, and only with
the tag of what its actor sees. -/
theorem checkAdmission_ok (hAdmit : checkAdmission env sub task = .ok ()) :
    task.root.frozen = false ∧ sub.expectedEtag ≠ "" ∧
      sub.expectedEtag = (projectLifecycle task.root
        (viewRelations env sub.scope (sub.clock.reading 2) task) sub.scope).etag env := by
  unfold checkAdmission checkEtag at hAdmit
  simp only [refuse_ok] at hAdmit
  obtain ⟨hFrozen, hEmpty, hTag, -⟩ := hAdmit
  refine ⟨?_, hEmpty, not_not.mp hTag⟩
  simpa [projectLifecycle] using hFrozen

/-! ## Which commands are on offer -/

variable {op : LifecycleOperation}

variable {command : LifecycleCommand} {relations : List Relation}

theorem selected_some (hSel : selectRelation command relations = .ok (some r, op)) : r ∈ relations ∧
      ((∃ text, command = .complete text ∧ relations = [r] ∧ r.targetKind = .user ∧
          op = .submit) ∨
        (command.handlingRelationId = some r.relationId ∧ op = command.operation)) := by
  unfold selectRelation at hSel
  split at hSel
  · -- `complete` names no relation: it is for a task with a single one, of a user
    rename_i text
    split at hSel
    · rename_i x
      split at hSel
      · rename_i hUser
        cases hSel
        exact ⟨mem_singleton_self _, .inl ⟨text, rfl, rfl, hUser, rfl⟩⟩
      · cases hSel
    · cases hSel
  · split at hSel
    · cases hSel
    · rename_i id hId
      split at hSel
      · rename_i x hFind
        cases hSel
        refine ⟨mem_of_find?_eq_some hFind, .inr ⟨?_, rfl⟩⟩
        have := find?_some hFind
        rw [hId, (of_decide_eq_true this : r.relationId = id)]
      · cases hSel

theorem selected_none (hSel : selectRelation command relations = .ok (none, op)) :
    op = command.operation := by
  unfold selectRelation at hSel
  repeat' split at hSel
  all_goals cases hSel
  rfl

theorem mem_headActions : op ∈ headActions r scope ↔ relationHeadAllowed r scope = true ∧
      (op = .assign ∨ (op = .departmentReview ∧ r.status = .awaitingDepartmentReview)) := by
  unfold headActions
  split
  · split <;> simp_all
  · simp_all

theorem mem_actorActions : op ∈ actorActions r scope ↔ relationActorAllowed r scope = true ∧
      ((op = .accept ∧ r.status = .assigned) ∨
        ((op = .feedback ∨ op = .submit) ∧ r.status = .inProgress)) := by
  unfold actorActions
  split
  · by_cases hA : r.status = .assigned
    · simp_all
    · by_cases hP : r.status = .inProgress <;> simp_all
  · simp_all

theorem mem_relationActions : op ∈ relationActions r scope false ↔
      (relationHeadAllowed r scope = true ∧
        (op = .assign ∨ (op = .departmentReview ∧ r.status = .awaitingDepartmentReview))) ∨
      (relationActorAllowed r scope = true ∧
        ((op = .accept ∧ r.status = .assigned) ∨
          ((op = .feedback ∨ op = .submit) ∧ r.status = .inProgress))) := by
  unfold relationActions
  rw [if_neg (by decide), mem_append, mem_headActions, mem_actorActions]

theorem mem_offered_root (hOffer : op ∈ offered sub loaded none) : loaded.root.frozen = false ∧
      (op = .revise ∨ op = .withdraw ∨ op = .extend ∨ op = .reassign ∨
        ((op = .confirm ∨ op = .returnTask) ∧ loaded.root.status = .awaitingAcceptance) ∨
        op = .submitSummary) := by
  have hOffer' : op ∈ initiatorActions loaded.root sub.scope ++
    leadActions loaded.root loaded.relations sub.scope := hOffer
  rcases mem_append.mp hOffer' with hOp | hOp
  · -- all that the initiator is offered is offered while the task is open
    unfold initiatorActions at hOp
    split at hOp
    · rename_i hGuard
      have hFrozen : loaded.root.frozen = false := by
        simp only [Bool.and_eq_true, Bool.not_eq_true'] at hGuard
        exact hGuard.1
      by_cases hAwait : loaded.root.status = .awaitingAcceptance
      · rw [if_pos hAwait] at hOp
        simp only [cons_append, nil_append, mem_cons, not_mem_nil,
          or_false] at hOp
        tauto
      · rw [if_neg hAwait] at hOp
        simp only [append_nil, mem_cons, not_mem_nil, or_false] at hOp
        tauto
    · cases hOp
  · unfold leadActions at hOp
    split at hOp
    · rename_i hGuard
      simp only [Bool.and_eq_true, Bool.not_eq_true'] at hGuard
      split at hOp
      · split at hOp
        · rw [mem_singleton.mp hOp]
          tauto
        · cases hOp
      · cases hOp
    · cases hOp

/-! ## Handlers of commands on a relation -/

theorem handleRelation_ok (hOk : (handleRelation sub loaded r files).result = .ok outcome) :
    ∃ table reopened status files',
      (changeRelation sub r loaded.table).result = .ok table ∧
      (reopen sub loaded.root (replaceRelation loaded.relations r (sub.changed r)) table).result =
        .ok reopened ∧
      statusAfterRelation loaded.root reopened.1 = .ok status ∧
      outcome = {
        table := reopened.2
        files := files'
        root := sub.acceptRoot loaded.root
        status := some status
        eventRelation := some (sub.changed r)
        visibility := sub.command.relationVisibility r
        text := sub.command.eventText
        payload := sub.command.relationPayload r (sub.changed r) } ∧
      (handleRelation sub loaded r files).rows = (changeRelation sub r loaded.table).rows ++
        (reopen sub loaded.root (replaceRelation loaded.relations r (sub.changed r))
          table).rows := by
  unfold handleRelation at hOk ⊢
  simp only [result_bind_ok] at hOk
  obtain ⟨published, hPub, table, hChange, linked, hLink, reopened, hReopen, status, hStatus,
    hOk⟩ := hOk
  refine ⟨table, reopened, status, linked, hChange, hReopen, ?_, (Except.ok.inj hOk).symm, ?_⟩
  · rwa [result_ofExcept] at hStatus
  · rw [rows_bind_ok hPub, rows_bind_ok hChange, rows_bind_ok hLink,
      rows_bind_ok hReopen, rows_bind_ok hStatus]
    simp

theorem assign_of_operation (hOp : command.operation = .assign) :
    ∃ id user, command = .assign id user := by
  cases command with
  | assign id user => exact ⟨id, user, rfl⟩
  | _ => cases hOp

theorem changeRelation_update (hOp : sub.command.operation ≠ .assign) (table : List Relation) :
    changeRelation sub r table = updateRelation (sub.changed r) table := by
  unfold changeRelation
  split
  · rename_i hCmd
    rw [hCmd] at hOp
    exact absurd rfl hOp
  · rfl

variable {table : List Relation}

theorem changeRelation_assign {id : Uuid} {user : Ident} {table' : List Relation}
    (hCmd : sub.command = .assign id user)
    (hOk : (changeRelation sub r table).result = .ok table') :
    r.targetKind = .department ∧
      (∀ x ∈ table, x.relationId ≠ sub.newRelationId) ∧
      table' = supersededIn [r.relationId] sub.now table ++ [sub.changed r] ∧
      (changeRelation sub r table).rows =
        (supersedeRelation r sub.now table).rows ++ [.relation (sub.changed r)] := by
  unfold changeRelation at hOk ⊢
  rw [hCmd] at hOk ⊢
  obtain ⟨⟨⟩, hReq, hOk⟩ := result_bind_ok.mp hOk
  obtain ⟨mid, hSup, hIns⟩ := result_bind_ok.mp hOk
  have hMid : mid = supersededIn [r.relationId] sub.now table :=
    Except.ok.inj (hSup.symm.trans result_supersedeRelation)
  have hRows := rows_insertRelation hIns
  obtain ⟨hFree, hTable⟩ := result_insertRelation.mp hIns
  refine ⟨(result_require_ok.mp hReq).1, fun x hx hId => ?_, hMid ▸ hTable, ?_⟩
  · -- Superseding keeps the ids.
    have hx' : (if x.relationId ∈ [r.relationId] then x.superseded sub.now else x) ∈ mid :=
      hMid ▸ mem_map_of_mem hx
    refine hFree _ hx' ?_
    have hNew : (sub.changed r).relationId = sub.newRelationId := by
      unfold Submission.changed
      rw [hCmd]
      rfl
    rw [hNew, ← hId]
    split <;> rfl
  · rw [rows_bind_ok hReq, rows_bind_ok hSup, hRows, rows_require,
      nil_append]

theorem reopen_ok {changed : List Relation} {reopened : List Relation × List Relation}
    (hOk : (reopen sub loaded.root changed table).result = .ok reopened) :
    (reopened = (changed, table) ∧ (reopen sub loaded.root changed table).rows = []) ∨
      (sub.command.operation = .assign ∧ ∃ tick inv,
        (invalidateSubmissions changed sub.now table).result = .ok inv ∧
        reopened = (loadRelations sub.scope tick inv, inv) ∧
        (reopen sub loaded.root changed table).rows =
          (invalidateSubmissions changed sub.now table).rows) := by
  unfold reopen at hOk ⊢
  split at hOk
  · rename_i hCond
    rw [if_pos hCond]
    obtain ⟨inv, hInv, hOk⟩ := result_bind_ok.mp hOk
    refine .inr ⟨hCond.1, sub.clock.reading 7, inv, hInv, (Except.ok.inj hOk).symm, ?_⟩
    rw [rows_bind_ok hInv]
    simp
  · rename_i hCond
    rw [if_neg hCond]
    exact .inl ⟨(Except.ok.inj hOk).symm, rfl⟩

/-! ## Handlers of commands on the task -/

/-- What a command on the whole task leaves, and the rows that it writes. -/
inductive RootHandled (sub : Submission) (loaded : Loaded) (files : List Attachment) :
    Outcome → List Row → Prop
  | summary {text : CommandText 1 2000} {ids : List Uuid} {files' : List Attachment}
      {payload : List (String × Json)} : sub.command = .submitSummary text ids →
      (∀ r ∈ loaded.relations, r.status = .submitted) →
      linkSubmitted sub none .shared loaded.table files = .ok files' →
      RootHandled sub loaded files (loaded.outcome sub files'
        (some (finalSubmissionStatus loaded.root)) (.obj payload)) []
  | confirmed : sub.command = .confirm →
      RootHandled sub loaded files (loaded.outcome sub files (some .completed) (.obj [])) []
  | returned {reason : CommandText 1 2000} {table : List Relation} :
      sub.command = .returnTask reason →
      (invalidateSubmissions loaded.relations sub.now loaded.table).result = .ok table →
      RootHandled sub loaded files
        { loaded.outcome sub files (some .inProgress) (.obj []) with table := table }
        (invalidateSubmissions loaded.relations sub.now loaded.table).rows
  | revised {title : CommandText 1 200} {requirement : CommandText 0 10000}
      {receipt : CommandText 0 2000} {mode : CompletionMode} {table : List Relation}
      {before after : Json} : sub.command = .revise title requirement receipt mode →
      (invalidateSubmissions loaded.relations sub.now loaded.table).result = .ok table →
      RootHandled sub loaded files
        { loaded.outcome sub files
            (if loaded.root.status = .awaitingAcceptance ∨
                loaded.root.status = .awaitingDepartmentReview then some .inProgress else none)
            (.obj [("before", before), ("after", after)]) with
          table := table
          root := { loaded.root with
            title := title.val
            requirement := requirement.val
            receiptRequirement := receipt.val
            completionMode := some mode } }
        (invalidateSubmissions loaded.relations sub.now loaded.table).rows
  | withdrawn {reason : CommandText 1 2000} : sub.command = .withdraw reason →
      RootHandled sub loaded files (handleWithdraw sub loaded files) []
  | extended {dueAt : Time} {before : Json} : sub.command = .extend dueAt →
      RootHandled sub loaded files
        { loaded.outcome sub files none
            (.obj [("before_due_at", before), ("after_due_at", .int dueAt)]) with
          root := { loaded.root with dueAt := some dueAt } } []
  | reassigned {targets : List DispatchTarget} {target : Option DispatchTarget}
      {rs table : List Relation} {lead : Relation} {previous replacement : Json} :
      sub.command = .reassign targets target → sub.replacementRelations = some rs →
      principalRelation rs = some lead →
      (lead.targetKind = .user ∨ sub.replacementDepartmentName.isSome = true) →
      (insertRelations rs (supersededIn (loaded.relations.map Relation.relationId) sub.now
        loaded.table)).result = .ok table →
      RootHandled sub loaded files
        { loaded.outcome sub files (some (initialStatus lead.targetKind))
            (.obj [("previous_relation_ids", previous),
              ("replacement_relation_ids", replacement)]) with
          table := table
          root := loaded.root.reassignedTo lead sub.replacementDepartmentName }
        ((supersedeRelations loaded.relations sub.now loaded.table).rows ++
          (insertRelations rs (supersededIn (loaded.relations.map Relation.relationId) sub.now
            loaded.table)).rows)

theorem handleReassign_ok {targets : List DispatchTarget} {target : Option DispatchTarget}
    (hCmd : sub.command = .reassign targets target)
    (hOk : (handleReassign sub loaded files).result = .ok outcome) :
    RootHandled sub loaded files outcome (handleReassign sub loaded files).rows := by
  unfold handleReassign at hOk ⊢
  split at hOk
  · cases hOk
  · cases hOk
  · rename_i rs hNe hRs
    obtain ⟨mid, hSup, hRest⟩ := result_bind_ok.mp hOk
    obtain ⟨table, hIns, hEnd⟩ := result_bind_ok.mp hRest
    have hMid : mid = supersededIn (loaded.relations.map Relation.relationId) sub.now
        loaded.table :=
      Except.ok.inj (hSup.symm.trans (result_supersedeRelations _))
    subst hMid
    cases hLead : principalRelation rs with
    | none =>
      rw [hLead] at hEnd
      cases hEnd
    | some lead =>
      rw [hLead] at hEnd
      obtain ⟨⟨⟩, hReq, hDone⟩ := result_bind_ok.mp hEnd
      cases hDone
      rw [rows_bind_ok hSup, rows_bind_ok hIns]
      rw [rows_bind_ok hReq, rows_require, nil_append]
      simpa using .reassigned hCmd hRs hLead (result_require_ok.mp hReq) hIns

/-- **Every command on the whole task is one of these.** -/
theorem handleRoot_cases (hOk : (handleRoot sub loaded files).result = .ok outcome) :
    RootHandled sub loaded files outcome (handleRoot sub loaded files).rows := by
  unfold handleRoot at hOk ⊢
  split at hOk
  · rename_i hCmd
    obtain ⟨⟨⟩, hReq, hOk⟩ := result_bind_ok.mp hOk
    obtain ⟨linked, hLink, hOk⟩ := result_bind_ok.mp hOk
    cases hOk
    unfold handleSummary
    rw [rows_bind_ok hReq, rows_bind_ok hLink]
    rw [result_ofExcept] at hLink
    simpa using .summary hCmd (result_require_ok.mp hReq).2 hLink
  · rename_i hCmd
    cases hOk
    exact .confirmed hCmd
  · rename_i hCmd
    obtain ⟨table, hInv, hOk⟩ := result_bind_ok.mp hOk
    cases hOk
    unfold handleReturn
    rw [rows_bind_ok hInv]
    simpa using .returned hCmd hInv
  · rename_i hCmd
    obtain ⟨table, hInv, hOk⟩ := result_bind_ok.mp hOk
    cases hOk
    unfold handleRevise
    rw [rows_bind_ok hInv]
    simpa using .revised hCmd hInv
  · rename_i hCmd
    cases hOk
    exact .withdrawn hCmd
  · rename_i hCmd
    obtain ⟨⟨⟩, hReq, hOk⟩ := result_bind_ok.mp hOk
    cases hOk
    unfold handleExtend
    rw [rows_bind_ok hReq]
    simpa using .extended hCmd
  · rename_i hCmd
    exact handleReassign_ok hCmd hOk
  · cases hOk

end EternalAI.Dispatch
