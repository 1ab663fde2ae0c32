import EternalAI.Dispatch.Lifecycle

/-!
# Dispatched tasks — accepted commands pass the constraints

The transition function of the application against the `CHECK` constraints of
the database. What the constraints ask of a relation, of the row of the task
and of the event is shown for each command from what the stored rows satisfy
already and from what the command has passed on its way.

* `selected_stored` — a command is carried out on the stored relation itself:
  whoever may carry it out sees all of its columns.
* `changed_valid`, `RootHandled.checked` — the relations that are written.
* `finalRoot_current`, `RootHandled.event_check` — the row of the task and the event.
* `accepted_command_passes_checks` — no row that an accepted command writes violates
  a `CHECK` constraint.
-/

namespace EternalAI.Dispatch

open Lib List

variable {env : Env} {sub : Submission} {task : Task} {files : List Attachment}
  {loaded : Loaded} {outcome : Outcome} {r x : Relation} {scope : Scope} {tick : Tick}
  {table : List Relation} {root : Root} {op : LifecycleOperation}

/-! ## Whoever may act sees everything -/

def Scope.FreshAt (scope : Scope) (tick : Tick) : Prop := ∃ limit ∈ scope.validUntil, tick ≤ limit

theorem Scope.FreshAt.responsibleAt (hFresh : scope.FreshAt tick) :
    scope.responsibleAt tick = scope.responsibleDepartmentIds := by
  obtain ⟨limit, hLimit, hLe⟩ := hFresh
  unfold Scope.responsibleAt
  rw [hLimit]
  simp [hLe]

theorem participant_of_head (hFresh : scope.FreshAt tick)
    (hHead : relationHeadAllowed x scope = true) : participant scope tick x = true := by
  unfold relationHeadAllowed at hHead
  unfold participant
  rw [hFresh.responsibleAt]
  simp only [Bool.and_eq_true, beq_iff_eq, decide_eq_true_eq] at hHead
  simp [hHead]

theorem participant_of_actor (hValid : x.Valid)
    (hActor : relationActorAllowed x scope = true) : participant scope tick x = true := by
  unfold relationActorAllowed at hActor
  unfold participant
  simp only [Bool.and_eq_true, Bool.or_eq_true, beq_iff_eq] at hActor
  obtain ⟨hLive, hActor⟩ := hActor
  rw [hLive, Bool.true_and]
  simp only [Bool.or_eq_true, beq_iff_eq, Bool.and_eq_true]
  rcases hActor with hAi | ⟨hSome, hEq⟩
  · exact .inl (.inl (.inl hAi))
  · -- The directory identity is the assignee's, or else the target's.
    cases hAssignee : x.assigneeDirectoryUserId with
    | some user =>
      cases user with
      | cons c cs =>
        refine .inl (.inl (.inr ?_))
        rw [hEq, hAssignee]
        simp [orElse, sqlEq]
      | nil => exact .inl (.inr (of_target hValid hSome (by rw [hEq, hAssignee]; rfl)))
    | none => exact .inl (.inr (of_target hValid hSome (by rw [hEq, hAssignee]; rfl)))
where
  of_target {x : Relation} (hValid : x.Valid) (hSome : scope.directoryUserId.isSome = true)
      (hEq : scope.directoryUserId = x.targetDirectoryUserId) :
      x.targetKind = .user ∧ sqlEq x.targetDirectoryUserId scope.directoryUserId = true := by
    have hNamed := hValid.target
    unfold Relation.TargetNamed at hNamed
    cases hKind : x.targetKind with
    | user =>
      refine ⟨rfl, ?_⟩
      rw [← hEq]
      simp [sqlEq, hSome]
    | department =>
      rw [hKind] at hNamed
      rw [hEq, hNamed] at hSome
      cases hSome

/-- **A command works on the stored relation.** Masking hides nothing from an
actor who has a command on the relation. -/
theorem selected_stored (hFresh : scope.FreshAt tick) (hChecked : ∀ x ∈ table, x.check = true)
    (hr : r ∈ loadRelations scope tick table) (hOp : op ∈ relationActions r scope false) :
    r ∈ current table := by
  obtain ⟨x, hx, rfl⟩ := mem_map.mp ((perm_insertionSort _ _).mem_iff.mp hr)
  -- the offer was made on the masked copy, but it rests on columns that masking keeps
  suffices hPart : participant scope tick x = true by
    unfold Relation.projected
    rwa [if_pos hPart]
  have hHead :
      relationHeadAllowed (x.projected scope tick) scope = relationHeadAllowed x scope := by
    unfold Relation.projected
    split <;> rfl
  have hActor : relationActorAllowed (x.projected scope tick) scope =
      relationActorAllowed x scope := by
    unfold Relation.projected
    split <;> rfl
  rcases mem_relationActions.mp hOp with ⟨hAllowed, -⟩ | ⟨hAllowed, -⟩
  · exact participant_of_head hFresh (hHead ▸ hAllowed)
  · exact participant_of_actor (Relation.check_iff.mp (hChecked x (mem_current.mp hx).1))
      (hActor ▸ hAllowed)

/-! ## Relations -/

theorem btrim_ne_nil {value : Str} (hStripped : strip pythonWhitespace value = value)
    (hne : value ≠ []) : btrim value ≠ [] := by
  obtain ⟨hHead, hLast⟩ := strip_eq_self.mp hStripped
  -- `btrim` takes blanks only, which are among what the validator strips
  have hSpace : ∀ c, c ∉ pythonWhitespace → c ∉ [' '] := by
    intro c hc hMem
    rw [mem_singleton.mp hMem] at hc
    exact hc (by decide)
  have hSelf : btrim value = value := strip_eq_self.mpr
    ⟨fun c hc => hSpace c (hHead c hc), fun c hc => hSpace c (hLast c hc)⟩
  rwa [hSelf]

variable {lo hi : Nat} {chars : List Char}

theorem lengthWithin_text (text : Text chars lo hi) {hi' : Nat} (hLe : hi ≤ hi') :
    lengthWithin lo hi' text.val = true := by
  have := text.bounded
  simp only [lengthWithin, Bool.and_eq_true, decide_eq_true_eq]
  omega

/-- The status of a relation that somebody has is not that of a department
without an assignee. -/
theorem assigneeNamed_kept (hValid : r.Valid) (hOld : r.status ≠ .departmentPending)
    (hUser : x.assigneeDirectoryUserId = r.assigneeDirectoryUserId)
    (hNew : x.status ≠ .departmentPending) : x.AssigneeNamed := by
  have hNamed := hValid.assignee
  unfold Relation.AssigneeNamed at hNamed ⊢
  rw [if_neg hOld] at hNamed
  rwa [if_neg hNew, hUser]

theorem text_ne_nil (text : Text chars (lo + 1) hi) : text.val ≠ [] := by
  intro hNil
  have := text.bounded.1
  rw [hNil] at this
  simp at this

variable {now : Time}

theorem superseded_valid (hValid : r.Valid) (hNow : r.createdAt ≤ now) : (r.superseded now).Valid :=
  { hValid with
    updated := hNow
    superseded := by
      rintro t ht
      cases ht
      exact hNow }

theorem invalidated_valid (hValid : r.Valid) (hIn : r.status.handedIn = true)
    (hNow : r.createdAt ≤ now) : (r.invalidated now).Valid :=
  { hValid with
    updated := hNow
    assignee := by
      refine assigneeNamed_kept hValid (fun hEq => ?_) rfl ?_
      · rw [hEq] at hIn
        cases hIn
      · unfold Relation.invalidated
        split <;> simp
    submission := by
      unfold Relation.SubmissionRecorded
      rw [if_neg]
      · exact ⟨rfl, rfl, rfl⟩
      · unfold Relation.invalidated
        split <;> simp [RelationStatus.handedIn]
    review := .inl ⟨rfl, rfl, rfl, rfl⟩ }

variable {user : Str} {id : Uuid}

theorem assignedTo_valid (hValid : r.Valid) (hLive : r.supersededAt = none) :
    (r.assignedTo id user now).Valid where
  department := hValid.department
  target := hValid.target
  updated := Int.le_refl _
  superseded := by
    intro t ht
    rw [show (r.assignedTo id user now).supersededAt = none from hLive] at ht
    cases ht
  assignee := rfl
  acceptance := .inl ⟨rfl, rfl⟩
  submission := ⟨rfl, rfl, rfl⟩
  review := .inl ⟨rfl, rfl, rfl, rfl⟩

theorem acceptedBy_valid (hValid : r.Valid) (hStatus : r.status = .assigned)
    (hNow : r.createdAt ≤ now) : (r.acceptedBy user now).Valid :=
  { hValid with
    updated := hNow
    assignee := assigneeNamed_kept hValid (by simp [hStatus]) rfl (by simp [Relation.acceptedBy])
    acceptance := .inr ⟨now, rfl, rfl, hNow⟩
    submission := by
      have hOld := hValid.submission
      unfold Relation.SubmissionRecorded at hOld
      rw [hStatus] at hOld
      exact hOld }

theorem submittedBy_valid (text : CommandText 1 2000) (hValid : r.Valid)
    (hStatus : r.status = .inProgress) (hNow : r.createdAt ≤ now) :
    (r.submittedBy user text.val now).Valid :=
  { hValid with
    updated := hNow
    assignee := by
      refine assigneeNamed_kept hValid (by simp [hStatus]) rfl ?_
      unfold Relation.submittedBy
      split <;> simp
    submission := by
      unfold Relation.SubmissionRecorded
      rw [if_pos]
      · exact ⟨rfl, rfl, text.val, rfl, lengthWithin_text text (by decide)⟩
      · unfold Relation.submittedBy
        split <;> rfl
    review := .inl ⟨rfl, rfl, rfl, rfl⟩ }

theorem reviewedBy_valid {approved : Bool} (reason : CommandText lo hi)
    (hReason : approved = true ∨ reason.val ≠ []) (hValid : r.Valid)
    (hKind : r.targetKind = .department) (hStatus : r.status = .awaitingDepartmentReview)
    (hNow : r.createdAt ≤ now) : (r.reviewedBy user approved reason.val now).Valid :=
  { hValid with
    updated := hNow
    assignee := by
      refine assigneeNamed_kept hValid (by simp [hStatus]) rfl ?_
      unfold Relation.reviewedBy
      split <;> simp
    submission := by
      have hOld := hValid.submission
      unfold Relation.SubmissionRecorded at hOld ⊢
      rw [hStatus] at hOld
      cases approved with
      | true => exact hOld
      | false => exact ⟨rfl, rfl, rfl⟩
    -- the constraint asks a rejection for a reason that is not blank
    review := by
      refine .inr ⟨rfl, rfl, hKind, approved, rfl, hReason.imp_right fun hne => ?_⟩
      simpa [Relation.reviewedBy] using btrim_ne_nil reason.stripped hne }

/-- The commands that an actor has on a relation, each with what it takes. -/
inductive Carries (scope : Scope) (r : Relation) : LifecycleCommand → Prop
  | assign {id : Uuid} {user : Ident} : relationHeadAllowed r scope = true →
      Carries scope r (.assign id user)
  | accept {id : Uuid} : r.status = .assigned → Carries scope r (.accept id)
  | feedback {id : Uuid} {text : CommandText 1 2000} : r.status = .inProgress →
      Carries scope r (.feedback id text)
  | submit {id : Uuid} {text : CommandText 1 2000} {ids : List Uuid} : r.status = .inProgress →
      Carries scope r (.submit id text ids)
  | complete {text : CommandText 1 2000} : r.status = .inProgress →
      Carries scope r (.complete text)
  | departmentReview {id : Uuid} {approved : Bool} {reason : CommandText 0 2000}
      {reasoned : approved = true ∨ reason.val ≠ []} : relationHeadAllowed r scope = true →
      r.status = .awaitingDepartmentReview →
      Carries scope r (.departmentReview id approved reason reasoned)

theorem head_department (hHead : relationHeadAllowed r scope = true) :
    r.targetKind = .department := by
  unfold relationHeadAllowed at hHead
  simp only [Bool.and_eq_true, beq_iff_eq] at hHead
  exact hHead.1.2

theorem inProgress_of_offered (hOp : op = .feedback ∨ op = .submit)
    (hOffer : op ∈ relationActions r scope false) : r.status = .inProgress := by
  rcases mem_relationActions.mp hOffer with ⟨-, hHead⟩ | ⟨-, hActor⟩
  · rcases hOp with rfl | rfl <;> simp at hHead
  · rcases hOp with rfl | rfl <;> simpa using hActor

variable {command : LifecycleCommand} {relations : List Relation}

theorem carries_of_offered (hSel : selectRelation command relations = .ok (some r, op))
    (hOffer : op ∈ relationActions r scope false) : Carries scope r command := by
  obtain ⟨-, ⟨text, rfl, -, -, rfl⟩ | ⟨hId, rfl⟩⟩ := selected_some hSel
  · exact .complete (inProgress_of_offered (.inr rfl) hOffer)
  · cases command with
    | assign id user =>
      refine .assign ?_
      simpa [LifecycleCommand.operation] using mem_relationActions.mp hOffer
    | accept id =>
      have hBoth : relationActorAllowed r scope = true ∧ r.status = .assigned := by
        simpa [LifecycleCommand.operation] using mem_relationActions.mp hOffer
      exact .accept hBoth.2
    | feedback id text => exact .feedback (inProgress_of_offered (.inl rfl) hOffer)
    | submit id text ids => exact .submit (inProgress_of_offered (.inr rfl) hOffer)
    | departmentReview id approved reason reasoned =>
      have hBoth : relationHeadAllowed r scope = true ∧ r.status = .awaitingDepartmentReview := by
        simpa [LifecycleCommand.operation] using mem_relationActions.mp hOffer
      exact .departmentReview hBoth.1 hBoth.2
    -- the others name no relation
    | complete text | submitSummary text ids | confirm | returnTask reason
    | revise title requirement receipt mode | withdraw reason | extend dueAt
    | reassign targets lead => cases hId

/-- **What a command makes of a relation passes its constraints.** -/
theorem changed_valid (hCarries : Carries sub.scope r sub.command) (hValid : r.Valid)
    (hLive : r.supersededAt = none) (hNow : r.createdAt ≤ sub.now) : (sub.changed r).Valid := by
  unfold Submission.changed
  -- as a variable, the command is fixed by each way to carry it out
  generalize sub.command = command at hCarries ⊢
  cases hCarries with
  | assign hHead => exact assignedTo_valid hValid hLive
  | accept hStatus => exact acceptedBy_valid hValid hStatus hNow
  | feedback hStatus => exact { hValid with updated := hNow }
  | submit hStatus | complete hStatus => exact submittedBy_valid _ hValid hStatus hNow
  | @departmentReview id approved reason reasoned hHead hStatus =>
    exact reviewedBy_valid reason reasoned hValid (head_department hHead) hStatus hNow

/-! ## Relations that are written -/

/-- A stored task with all timestamps in the past. -/
structure Task.Before (task : Task) (now : Time) : Prop where
  created : task.root.createdAt ≤ now
  updated : task.root.updatedAt ≤ now
  relations : ∀ r ∈ task.relations, r.createdAt ≤ now

/-- What a command on a task of the current model starts from. -/
structure Loaded.Stored (loaded : Loaded) (sub : Submission) : Prop where
  tracks : loaded.Tracks
  current : loaded.root.Current
  checked : ∀ r ∈ loaded.table, r.check = true
  past : ∀ r ∈ loaded.table, r.createdAt ≤ sub.now
  created : loaded.root.createdAt ≤ sub.now
  updated : loaded.root.updatedAt ≤ sub.now

theorem Loaded.Stored.keyed (hStored : loaded.Stored sub) : Keyed loaded.table :=
  hStored.tracks.structured.keyed

theorem Loaded.Stored.valid (hStored : loaded.Stored sub) (hx : x ∈ loaded.table) : x.Valid :=
  Relation.check_iff.mp (hStored.checked x hx)

theorem invalidateSubmissions_rows (hCopies : Copies relations table) (hKeyed : Keyed table)
    (hCheck : ∀ x ∈ current table, x.status.handedIn = true → x.Valid ∧ x.createdAt ≤ now) :
    ∀ row ∈ (invalidateSubmissions relations now table).rows, checkRow row = true := by
  intro row hRow
  obtain ⟨x, hx, hIn, rfl⟩ := rows_invalidateSubmissions hCopies hKeyed hRow
  obtain ⟨hValid, hNow⟩ := hCheck x hx hIn
  exact Relation.check_iff.mpr (invalidated_valid hValid hIn hNow)

variable {table' : List Relation}

theorem changeRelation_rows (hStored : loaded.Stored sub) (hr : r ∈ current loaded.table)
    (hCarries : Carries sub.scope r sub.command)
    (hOk : (changeRelation sub r loaded.table).result = .ok table') :
    ∀ row ∈ (changeRelation sub r loaded.table).rows, checkRow row = true := by
  obtain ⟨hMem, hLive⟩ := mem_current.mp hr
  have hValid := hStored.valid hMem
  have hNow := hStored.past r hMem
  have hNew := changed_valid hCarries hValid hLive hNow
  intro row hRow
  by_cases hOp : sub.command.operation = .assign
  · -- an assignment writes two rows: the one it supersedes, and its successor
    obtain ⟨id, user, hCmd⟩ := assign_of_operation hOp
    obtain ⟨-, -, -, hRows⟩ := changeRelation_assign hCmd hOk
    rw [hRows, mem_append] at hRow
    rcases hRow with hRow | hRow
    · obtain ⟨x, hx, hId, rfl⟩ := mem_rows_supersedeRelation.mp hRow
      obtain rfl := hStored.keyed.eq hx hMem hId
      exact Relation.check_iff.mpr (superseded_valid hValid hNow)
    · rw [mem_singleton.mp hRow]
      exact Relation.check_iff.mpr hNew
  · rw [changeRelation_update hOp] at hRow
    have hKey := changed_sameKey (r := r) hOp
    obtain ⟨x, hx, hId, rfl⟩ := mem_rows_updateRelation.mp hRow
    obtain rfl := hStored.keyed.eq hx hMem (hId.trans hKey.relationId)
    rw [hKey.overwrite ⟨rfl⟩]
    exact Relation.check_iff.mpr hNew

theorem changed_assign_handedIn (hOp : sub.command.operation = .assign) :
    (sub.changed r).status.handedIn = false := by
  obtain ⟨id, user, hCmd⟩ := assign_of_operation hOp
  unfold Submission.changed
  rw [hCmd]
  rfl

theorem handleRelation_rows (hStored : loaded.Stored sub) (hr : r ∈ loaded.relations)
    (hCur : r ∈ current loaded.table) (hCarries : Carries sub.scope r sub.command)
    (hOk : (handleRelation sub loaded r files).result = .ok outcome) :
    ∀ row ∈ (handleRelation sub loaded r files).rows, checkRow row = true := by
  obtain ⟨table, reopened, status, files', hChange, hReopen, -, -, hRows⟩ := handleRelation_ok hOk
  obtain ⟨hKeyed, hCopies⟩ := changeRelation_ok hStored.tracks hr hChange
  have hChanged := changeRelation_rows hStored hCur hCarries hChange
  intro row hRow
  rw [hRows, mem_append] at hRow
  rcases hRow with hRow | hRow
  · exact hChanged row hRow
  · rcases reopen_ok hReopen with ⟨-, hNone⟩ | ⟨hOp, tick, inv, hInv, -, hRows'⟩
    · rw [hNone] at hRow
      cases hRow
    · rw [hRows'] at hRow
      refine invalidateSubmissions_rows hCopies hKeyed (fun x hx hIn => ?_) row hRow
      obtain ⟨id, user, hCmd⟩ := assign_of_operation hOp
      obtain ⟨-, -, rfl, -⟩ := changeRelation_assign hCmd hChange
      rw [current_append, current_supersededIn, mem_append] at hx
      rcases hx with hx | hx
      · -- The rows that are still current are those of the table before.
        have hOld := (mem_current.mp (mem_filter.mp hx).1).1
        exact ⟨hStored.valid hOld, hStored.past x hOld⟩
      · -- the relation that the assignment has created holds no submission
        obtain rfl := mem_singleton.mp (mem_current.mp hx).1
        rw [changed_assign_handedIn hOp] at hIn
        cases hIn

variable {written : List Row}

theorem RootHandled.checked (hStored : loaded.Stored sub)
    (hReplaces : ∀ rs, sub.replacementRelations = some rs →
      Replaces (loaded.root.dispatchMode.getD .independent) rs)
    (hHandled : RootHandled sub loaded files outcome written) :
    ∀ row ∈ written, checkRow row = true := by
  cases hHandled with
  | summary | confirmed | withdrawn | extended => exact fun _ h => nomatch h
  | returned | revised =>
    exact invalidateSubmissions_rows hStored.tracks.copies hStored.keyed fun x hx _ =>
      ⟨hStored.valid (mem_current.mp hx).1, hStored.past x (mem_current.mp hx).1⟩
  | reassigned _ hRs =>
    intro row hRow
    rcases mem_append.mp hRow with hRow | hRow
    · obtain ⟨x, hx, rfl⟩ := rows_supersedeRelations _ hRow
      exact Relation.check_iff.mpr (superseded_valid (hStored.valid hx) (hStored.past x hx))
    · obtain ⟨x, hx, rfl⟩ := rows_insertRelations _ hRow
      exact (hReplaces _ hRs).checked x hx

/-! ## The row of the task -/

/-- What a command has to leave in the row of a task, apart from the columns it
cannot change. -/
structure RowFits (sub : Submission) (before : Root) (outcome : Outcome) : Prop where
  owner : lengthWithin 1 128 outcome.root.ownerDepartmentId = true
  title : lengthWithin 1 200 outcome.root.title = true
  requirement : outcome.root.requirement.length ≤ 10000
  receipt : outcome.root.receiptRequirement.length ≤ 2000
  target : (outcome.finalRoot sub before).TargetNamed
  due : outcome.root.dueAt.isSome = true ∨ before.reminderChoices = []
  completionMode : outcome.root.completionMode.isSome = true
  acceptance : (outcome.root.acceptedAt = none ∧ outcome.root.acceptedByAiUserId = none) ∨
    ∃ t, outcome.root.acceptedAt = some t ∧ outcome.root.acceptedByAiUserId.isSome = true ∧
      before.createdAt ≤ t ∧ t ≤ sub.now
  completion : outcome.root.completedByAiUserId = none ∧ outcome.root.completedAt = none
  withdrawal : if outcome.status = some .withdrawn then
      outcome.root.withdrawnAt = some sub.now ∧
        outcome.root.withdrawnByAiUserId = some sub.scope.aiUserId
    else outcome.root.withdrawnAt = none ∧ outcome.root.withdrawnByAiUserId = none

theorem open_status (hOpen : root.frozen = false) :
    root.status ≠ .completed ∧ root.status ≠ .withdrawn := by
  rcases open_cases hOpen with h | h | h | h | h <;> simp [h]

variable {status : LifecycleStatus}

theorem finalRoot_status (sub : Submission) (outcome : Outcome) (hStatus : root.status ≠ status) :
    (outcome.finalRoot sub root).status = status ↔ outcome.status = some status := by
  show outcome.status.getD root.status = status ↔ _
  cases outcome.status with
  | none => simp [hStatus]
  | some s => simp

/-- **The row that is written passes its constraints.** -/
theorem finalRoot_current (hCur : root.Current) (hOpen : root.frozen = false)
    (hNow : root.createdAt ≤ sub.now) (hFrame : RootFrame root (outcome.finalRoot sub root))
    (hFits : RowFits sub root outcome) : (outcome.finalRoot sub root).Current where
  model := hFrame.dispatchModelVersion.trans hCur.model
  manual := {
    tenant := by
      rw [hFrame.tenantId]
      exact hCur.manual.tenant
    owner := hFits.owner
    initiator := by
      rw [hFrame.initiatorAiUserId]
      exact hCur.manual.initiator
    version := Nat.le_add_left 1 _
    title := hFits.title
    requirement := hFits.requirement
    receipt := hFits.receipt
    status := by
      cases (outcome.finalRoot sub root).status <;> simp [currentStatuses]
    assignee := hFrame.assigneeAiUserId.trans hCur.manual.assignee
    target := hFits.target
    reminders := by
      rw [hFrame.reminderChoices]
      exact hCur.manual.reminders
    due := by
      rw [hFrame.reminderChoices]
      exact hFits.due }
  -- who completed the task, and when, is added by `finalRoot`; the other records are the command's
  completion := by
    unfold Root.CompletionRecorded
    have hIff := finalRoot_status sub outcome (open_status hOpen).1
    by_cases hDone : outcome.status = some .completed
    · rw [if_pos (hIff.mpr hDone), hFrame.createdAt]
      unfold Outcome.finalRoot
      simp only [hDone, if_true]
      refine ⟨?_, trivial, hNow⟩
      simpa using sub.scope.identified
    · rw [if_neg (fun h => hDone (hIff.mp h))]
      unfold Outcome.finalRoot
      simp only [hDone, if_false]
      exact hFits.completion
  acceptance := by
    unfold Root.AcceptanceRecorded
    rw [hFrame.createdAt]
    exact hFits.acceptance
  withdrawal := by
    unfold Root.WithdrawalRecorded
    have hIff := finalRoot_status sub outcome (open_status hOpen).2
    have hRec := hFits.withdrawal
    by_cases hDone : outcome.status = some .withdrawn
    · rw [if_pos hDone] at hRec
      rw [if_pos (hIff.mpr hDone), hFrame.createdAt]
      refine ⟨?_, hRec.1, hNow⟩
      show outcome.root.withdrawnByAiUserId.any _ = true
      rw [hRec.2]
      simpa using sub.scope.identified
    · rw [if_neg hDone] at hRec
      rw [if_neg (fun h => hDone (hIff.mp h))]
      exact hRec
  mode := by
    rw [hFrame.dispatchMode]
    exact hCur.mode
  completionMode := hFits.completionMode

def StatusFits (kind : TargetKind) (status : LifecycleStatus) : Prop :=
  match kind with
  | .user => status ≠ .departmentPending
  | .department => status ≠ .assigned

variable {root' : Root}

theorem TargetNamed_of_status (hNamed : root.TargetNamed)
    (hKind : root'.targetKind = root.targetKind)
    (hUser : root'.assigneeDirectoryUserId = root.assigneeDirectoryUserId)
    (hName : root'.assigneeDisplayName = root.assigneeDisplayName)
    (hStatus : StatusFits root.targetKind root'.status) : root'.TargetNamed := by
  unfold Root.TargetNamed at hNamed ⊢
  rw [hKind, hUser, hName]
  cases hK : root.targetKind with
  | user | department =>
    rw [hK] at hNamed hStatus
    exact ⟨hNamed.1, hNamed.2.1, hStatus⟩

theorem StatusFits.of_open {kind : TargetKind} (hAssigned : status ≠ .assigned)
    (hPending : status ≠ .departmentPending) : StatusFits kind status := by
  cases kind
  · exact hPending
  · exact hAssigned

theorem StatusFits.of_named (hNamed : root.TargetNamed) :
    StatusFits root.targetKind root.status := by
  unfold Root.TargetNamed at hNamed
  cases hK : root.targetKind with
  | user | department =>
    rw [hK] at hNamed
    exact hNamed.2.2

theorem RowFits.of_same (hCur : root.Current) (hOpen : root.frozen = false)
    (hUpdated : root.updatedAt ≤ sub.now) (hRoot : outcome.root = root)
    (hStatus : StatusFits root.targetKind (outcome.status.getD root.status))
    (hStay : outcome.status ≠ some .withdrawn) : RowFits sub root outcome := by
  subst hRoot
  exact {
    owner := hCur.manual.owner
    title := hCur.manual.title
    requirement := hCur.manual.requirement
    receipt := hCur.manual.receipt
    target := TargetNamed_of_status hCur.manual.target rfl rfl rfl hStatus
    due := hCur.manual.due
    completionMode := hCur.completionMode
    acceptance := by
      refine hCur.acceptance.imp_right ?_
      rintro ⟨t, hAt, hBy, hAfter, hLe⟩
      exact ⟨t, hAt, hBy, hAfter, Int.le_trans hLe hUpdated⟩
    completion := by
      have hRec := hCur.completion
      unfold Root.CompletionRecorded at hRec
      rwa [if_neg (open_status hOpen).1] at hRec
    withdrawal := by
      have hRec := hCur.withdrawal
      unfold Root.WithdrawalRecorded at hRec
      rw [if_neg (open_status hOpen).2] at hRec
      rwa [if_neg hStay] }

theorem independentStatus_fits (hValid : x.Valid) :
    StatusFits x.targetKind (independentStatus root x) := by
  have hAssignee := hValid.assignee
  unfold Relation.AssigneeNamed at hAssignee
  unfold independentStatus finalSubmissionStatus StatusFits
  cases hKind : x.targetKind with
  | user =>
    cases hStatus : x.status <;> simp only [ne_eq]
    · -- only the relation of a department may wait for its assignee
      rw [hStatus, hKind] at hAssignee
      simp at hAssignee
    · simp
    · simp
    · simp
    · split <;> simp
  | department =>
    cases hStatus : x.status <;> simp
    split <;> simp

theorem collaborativeStatus_fits (kind : TargetKind) (lead : Relation) :
    StatusFits kind (collaborativeStatus lead) := by
  refine .of_open ?_ ?_ <;> unfold collaborativeStatus <;> split <;> simp

theorem independentStatus_ne_withdrawn : independentStatus root x ≠ .withdrawn := by
  unfold independentStatus finalSubmissionStatus
  cases x.status <;> simp
  · split <;> simp
  · split <;> simp

theorem collaborativeStatus_ne_withdrawn : collaborativeStatus x ≠ .withdrawn := by
  unfold collaborativeStatus
  split <;> simp

theorem handleRelation_fits (hStored : loaded.Stored sub) (hOpen : loaded.root.frozen = false)
    (hr : r ∈ loaded.relations) (hCur : r ∈ current loaded.table)
    (hCarries : Carries sub.scope r sub.command)
    (hOk : (handleRelation sub loaded r files).result = .ok outcome) :
    RowFits sub loaded.root outcome := by
  have hRows := handleRelation_rows hStored hr hCur hCarries hOk
  have hCovered := handle_covered (show (handle sub loaded (some r) files).result = _ from hOk)
  have hStr := handleRelation_structured hStored.tracks hr hOk
  obtain ⟨table, reopened, status, files', hChange, hReopen, hStatus, rfl, -⟩ :=
    handleRelation_ok hOk
  obtain ⟨hKeyed, hCopies⟩ := changeRelation_ok hStored.tracks hr hChange
  obtain ⟨-, -, hCopies'⟩ := reopen_tracks hKeyed hCopies hReopen
  obtain ⟨mode, hMode, hFits⟩ := hStr.mode
  -- The relation that decides on the status has the target of the task, and is valid.
  obtain ⟨x, hx, hRole, hWhich⟩ := statusAfterRelation_ok hFits
    ((acceptRoot_dispatchMode.symm.trans hMode : loaded.root.dispatchMode = some mode)) hCopies'
    hStatus
  have hValid : x.Valid := by
    rcases hCovered x (mem_current.mp hx).1 with hOld | hNew
    · exact hStored.valid hOld
    · exact Relation.check_iff.mp (hRows (.relation x) hNew)
  have hKind : x.targetKind = loaded.root.targetKind := by
    have hTarget := hStr.target x hx hRole
    exact (congrArg Prod.fst hTarget).trans (congrArg Prod.fst
      (acceptRoot_target : (sub.acceptRoot loaded.root).target = _))
  have hStatusFits : StatusFits loaded.root.targetKind status := by
    rcases hWhich with ⟨-, -, rfl⟩ | ⟨-, rfl⟩
    · rw [← hKind]
      exact independentStatus_fits hValid
    · exact collaborativeStatus_fits _ _
  have hStay : some status ≠ some LifecycleStatus.withdrawn := by
    rintro hEq
    rcases hWhich with ⟨-, -, rfl⟩ | ⟨-, rfl⟩
    · exact independentStatus_ne_withdrawn (Option.some.inj hEq)
    · exact collaborativeStatus_ne_withdrawn (Option.some.inj hEq)
  have hPlain : ∀ outcome : Outcome, outcome.root = loaded.root → outcome.status = some status →
      RowFits sub loaded.root outcome := by
    intro outcome hRoot hSome
    refine .of_same hStored.current hOpen hStored.updated hRoot ?_ ?_
    · rw [hSome]
      exact hStatusFits
    · rw [hSome]
      exact hStay
  by_cases hFirst : sub.acceptRoot loaded.root = loaded.root
  · exact hPlain _ hFirst rfl
  · -- The first acceptance is recorded in the row.
    have hAccept : sub.acceptRoot loaded.root = { loaded.root with
        acceptedAt := some sub.now
        acceptedByAiUserId := some sub.scope.aiUserId } := by
      unfold Submission.acceptRoot at hFirst ⊢
      split
      · split
        · rfl
        · simp_all
      · simp_all
    rw [hAccept]
    exact {
      hPlain ⟨reopened.2, files', loaded.root, some status, none, .shared, none, .null⟩ rfl rfl
        with acceptance := .inr ⟨sub.now, rfl, rfl, hStored.created, Int.le_refl _⟩ }

theorem reassigned_named {lead : Relation} {name : Option Str} (hValid : lead.Valid)
    (hName : lead.targetKind = .user ∨ name.isSome = true)
    (hKind : root'.targetKind = lead.targetKind)
    (hUser : root'.assigneeDirectoryUserId = lead.targetDirectoryUserId)
    (hDisplay : root'.assigneeDisplayName = if lead.targetKind = .user then none else name)
    (hStatus : root'.status = initialStatus lead.targetKind) : root'.TargetNamed := by
  have hTarget := hValid.target
  unfold Relation.TargetNamed at hTarget
  unfold Root.TargetNamed
  rw [hKind, hUser, hDisplay, hStatus]
  cases hK : lead.targetKind with
  | user =>
    rw [hK] at hTarget
    exact ⟨hTarget, rfl, by simp [initialStatus]⟩
  | department =>
    rw [hK] at hTarget hName
    refine ⟨hTarget, ?_, by simp [initialStatus]⟩
    simpa using hName

attribute [local simp] Loaded.outcome

theorem RootHandled.fits (hStored : loaded.Stored sub) (hOpen : loaded.root.frozen = false)
    (hReplaces : ∀ rs, sub.replacementRelations = some rs →
      Replaces (loaded.root.dispatchMode.getD .independent) rs)
    (hHandled : RootHandled sub loaded files outcome written) :
    RowFits sub loaded.root outcome := by
  -- each command is compared with an outcome that keeps the row: only what it writes is shown anew
  have hSame : ∀ {outcome : Outcome}, outcome.root = loaded.root →
      StatusFits loaded.root.targetKind (outcome.status.getD loaded.root.status) →
      outcome.status ≠ some .withdrawn → RowFits sub loaded.root outcome :=
    fun hRoot hStatus hStay => .of_same hStored.current hOpen hStored.updated hRoot hStatus hStay
  cases hHandled with
  | summary =>
    refine hSame rfl (.of_open ?_ ?_) ?_ <;>
      (simp only [Loaded.outcome, Option.getD_some, ne_eq, Option.some.injEq]
       unfold finalSubmissionStatus
       split <;> simp)
  | confirmed | returned => refine hSame rfl (.of_open ?_ ?_) ?_ <;> simp
  | @revised title requirement receipt _ table =>
    have hPlain : RowFits sub loaded.root { loaded.outcome sub files
        (if loaded.root.status = .awaitingAcceptance ∨
            loaded.root.status = .awaitingDepartmentReview then some .inProgress else none)
        .null with table := table } := by
      refine hSame rfl ?_ ?_
      · split
        · exact .of_open (by simp) (by simp)
        · exact .of_named hStored.current.manual.target
      · split <;> simp
    exact { hPlain with
      title := lengthWithin_text title (by decide)
      requirement := requirement.bounded.2
      receipt := receipt.bounded.2
      completionMode := rfl }
  | withdrawn =>
    -- all but the target and the withdrawal is as after a command that keeps the row
    have hPlain : RowFits sub loaded.root (loaded.outcome sub files (some .completed) .null) :=
      hSame rfl (.of_open (by simp) (by simp)) (by simp)
    exact { hPlain with
      target := by
        refine TargetNamed_of_status hStored.current.manual.target rfl rfl rfl (.of_open ?_ ?_) <;>
          simp [handleWithdraw, Outcome.finalRoot]
      withdrawal := ⟨rfl, rfl⟩ }
  | extended =>
    have hPlain : RowFits sub loaded.root (loaded.outcome sub files none .null) :=
      hSame rfl (.of_named hStored.current.manual.target) (by simp)
    exact { hPlain with due := .inl rfl }
  | @reassigned _ _ rs _ lead _ _ _ hRs hLead hName =>
    have hValid : lead.Valid := Relation.check_iff.mp
      ((hReplaces rs hRs).checked lead (mem_of_find?_eq_some hLead))
    have hPlain : RowFits sub loaded.root (loaded.outcome sub files (some .inProgress) .null) :=
      hSame rfl (.of_open (by simp) (by simp)) (by simp)
    have hStay : initialStatus lead.targetKind ≠ .withdrawn := by
      unfold initialStatus
      split <;> simp
    exact { hPlain with
      owner := hValid.department
      target := reassigned_named hValid hName rfl rfl rfl rfl
      acceptance := .inl ⟨rfl, rfl⟩
      withdrawal := by
        have hRec := hPlain.withdrawal
        rw [if_neg (by simpa using hStay)]
        exact hRec }

/-! ## The event -/

open Truth

variable {e : Event}

theorem Event.check_of_current (hModel : e.eventModelVersion = some 2)
    (hVisible : e.visibility.isSome = true) (hPayload : e.payload.any Json.isObject = true)
    (hRelation : e.relationCondition.isTrue = true)
    (hFrom : e.fromStatus ≠ .completed ∧ e.fromStatus ≠ .withdrawn)
    (hTransition : e.transition.isTrue = true) : e.check = true := by
  have hInto : (e.into currentStatuses).isTrue = true := by
    unfold Event.into
    cases e.toStatus <;> simp [currentStatuses]
  have hSome : (on e.visibility fun _ => true).isTrue = true := by
    cases hEq : e.visibility <;> simp_all
  have hOpen : e.fromStatus ∈ [LifecycleStatus.assigned, .departmentPending, .inProgress,
      .awaitingDepartmentReview, .awaitingAcceptance] := by
    cases hEq : e.fromStatus <;> simp_all
  unfold Event.check
  simp only [isTrue_or, isTrue_and, isTrue_known, isTrue_on, hModel, Option.any_some,
    decide_true, Bool.true_and, hPayload, hRelation, decide_eq_true hOpen, hInto, hTransition,
    Bool.and_true]
  rw [isTrue_on] at hSome
  rw [hSome, Bool.or_true]

theorem mem_anyRelationStatus (s : RelationStatus) : s ∈ anyRelationStatus := by
  cases s <;> simp [anyRelationStatus]

theorem relationCondition_some {before after : RelationStatus}
    (hId : e.handlingRelationId = some id) (hBefore : e.relationFromStatus = some before)
    (hAfter : e.relationToStatus = some after) : e.relationCondition.isTrue = true := by
  unfold Event.relationCondition
  simp [hId, hBefore, hAfter, mem_anyRelationStatus]

theorem relationCondition_none (hId : e.handlingRelationId = none)
    (hBefore : e.relationFromStatus = none) (hAfter : e.relationToStatus = none)
    (hShared : e.visibility = some .shared) : e.relationCondition.isTrue = true := by
  unfold Event.relationCondition
  simp [hId, hBefore, hAfter, hShared]

/-- The statuses that a task may have after a command has left the relation
`x`. -/
def Reached (root : Root) (x : Relation) (status : LifecycleStatus) : Prop :=
  status = independentStatus root x ∨ status = .awaitingDepartmentReview ∨ status = .inProgress

/-- The status of a task after a command on a relation: that of its only
relation, or one of two. -/
theorem handleRelation_status {relations' : List Relation} (hStr : Structured root table)
    (hParts : (parts table').Perm (parts table)) (hCopies : Copies relations' table')
    (hStatus : statusAfterRelation root relations' = .ok status) (hx : x ∈ current table') :
    Reached root x status := by
  obtain ⟨mode, hMode, hFits⟩ := hStr.mode
  obtain ⟨y, hy, -, ⟨-, hCur, rfl⟩ | ⟨-, rfl⟩⟩ :=
    statusAfterRelation_ok (hFits.perm hParts.symm) hMode hCopies hStatus
  · rw [hCur] at hx
    rw [mem_singleton.mp hx]
    exact .inl rfl
  · unfold collaborativeStatus
    split
    · exact .inr (.inl rfl)
    · exact .inr (.inr rfl)

/-- The relation that a command has changed is there in the end, and its
submission, if it has one, is not taken back. -/
theorem reopen_changed {changed : List Relation} {reopened : List Relation × List Relation}
    (hKeyed : Keyed table') (hCopies : Copies changed table')
    (hOk : (reopen sub loaded.root changed table').result = .ok reopened) (hMem : x ∈ changed)
    (hKept : sub.command.operation = .assign → x.status.handedIn = false) :
    ∃ y ∈ current reopened.2, y.status = x.status ∧ y.targetKind = x.targetKind := by
  obtain ⟨y, hy, hCore⟩ := hCopies.row hMem
  have hKind : y.targetKind = x.targetKind := (hCore.congr (·.targetKind) fun _ => rfl).symm
  rcases reopen_ok hOk with ⟨rfl, -⟩ | ⟨hOp, tick, inv, hInv, rfl, -⟩
  · exact ⟨y, hy, hCore.status.symm, hKind⟩
  · rw [result_invalidateSubmissions hCopies hKeyed] at hInv
    cases hInv
    -- submissions are taken back by an assignment only, whose relation has none
    have hTaken : y.taken sub.now = y := by
      unfold Relation.taken
      rw [if_neg (by rw [← hCore.status, hKept hOp]; simp)]
    refine ⟨y, ?_, hCore.status.symm, hKind⟩
    rw [current_takenBack]
    exact hTaken ▸ mem_map_of_mem hy

theorem Reached.congr (hReached : Reached root r status) (hStatus : r.status = x.status)
    (hKind : r.targetKind = x.targetKind) : Reached root x status := by
  unfold Reached independentStatus at hReached ⊢
  rwa [← hStatus, ← hKind]

section

variable (hReached : Reached root x status)

include hReached

theorem Reached.mem {statuses : List LifecycleStatus}
    (hOnly : independentStatus root x ∈ statuses) (hReview : .awaitingDepartmentReview ∈ statuses)
    (hWork : .inProgress ∈ statuses) : status ∈ statuses := by
  rcases hReached with rfl | rfl | rfl
  · exact hOnly
  · exact hReview
  · exact hWork

theorem Reached.of_assigned (hStatus : x.status = .assigned) :
    status ∈ [LifecycleStatus.assigned, .inProgress, .awaitingDepartmentReview] := by
  refine hReached.mem ?_ (by simp) (by simp)
  unfold independentStatus
  rw [hStatus]
  simp only
  split <;> simp

theorem Reached.of_inProgress (hStatus : x.status = .inProgress) :
    status ∈ [LifecycleStatus.inProgress, .awaitingDepartmentReview] := by
  refine hReached.mem ?_ (by simp) (by simp)
  simp [independentStatus, hStatus]

theorem Reached.of_done
    (hStatus : x.status = .inProgress ∨ x.status = .submitted ∨
      x.status = .awaitingDepartmentReview) :
    status ∈ [LifecycleStatus.inProgress, .awaitingDepartmentReview, .awaitingAcceptance,
      .completed] := by
  refine hReached.mem ?_ (by simp) (by simp)
  unfold independentStatus finalSubmissionStatus
  rcases hStatus with hStatus | hStatus | hStatus
  · simp [hStatus]
  · rw [hStatus]
    simp only
    split <;> simp
  · simp [hStatus]

end

/-- What the event of a command on a relation says about it. -/
structure Reports (root : Root) (command : LifecycleCommand) (r new : Relation) (e : Event) :
    Prop where
  operation : e.operation = command.operation
  relation : e.handlingRelationId.isSome = true
  before : e.relationFromStatus = some r.status
  after : e.relationToStatus = some new.status
  text : e.text = command.eventText
  payload : e.payload = some (command.relationPayload r new)
  reached : Reached root new e.toStatus

attribute [local simp] Event.transition Event.rootOnly Event.into Outcome.event

theorem Reports.moves {new : Relation} {froms tos : List RelationStatus}
    (hRep : Reports root command r new e) (hFrom : r.status ∈ froms) (hTo : new.status ∈ tos) :
    (e.moves froms tos).isTrue = true := by
  simp [Event.moves, hRep.relation, hRep.before, hRep.after, hFrom, hTo]

theorem submittedBy_status (r : Relation) (user text : Str) (now : Time) :
    (r.submittedBy user text now).status ∈
      [RelationStatus.submitted, .awaitingDepartmentReview] := by
  unfold Relation.submittedBy
  split <;> simp

theorem Reports.submitted (text : CommandText 1 2000)
    (hRep : Reports root command r (r.submittedBy user text.val now) e)
    (hOp : command.operation = .submit ∨ command.operation = .complete)
    (hText : command.eventText = some text.val) (hWork : r.status = .inProgress) :
    e.transition.isTrue = true := by
  have hAfter := submittedBy_status r user text.val now
  have hMoves := hRep.moves (mem_singleton.mpr hWork) hAfter
  have hInto := hRep.reached.of_done (by
    simp only [mem_cons, not_mem_nil, or_false] at hAfter
    exact .inr hAfter)
  have hLen := lengthWithin_text text (show 2000 ≤ 10000 by decide)
  rcases hOp with hOp | hOp <;> simp [hRep.operation, hOp, hMoves, hInto, hRep.text, hText, hLen]

attribute [local simp] LifecycleCommand.operation LifecycleCommand.eventText LifecycleCommand.text

/-- **The event of a command on a relation is in the transition table.** -/
theorem Reports.transition (hCarries : Carries sub.scope r sub.command)
    (hRep : Reports root sub.command r (sub.changed r) e) : e.transition.isTrue = true := by
  unfold Submission.changed at hRep
  generalize sub.command = command at *
  cases hCarries with
  | assign hHead =>
    have hMoves : (e.moves anyRelationStatus [.assigned]).isTrue = true :=
      hRep.moves (mem_anyRelationStatus _) (mem_singleton_self _)
    have hInto := hRep.reached.of_assigned rfl
    simp [hRep.operation, hRep.text, hMoves, hInto]
  | accept hAssigned =>
    have hMoves : (e.moves [.assigned] [.inProgress]).isTrue = true :=
      hRep.moves (mem_singleton.mpr hAssigned) (mem_singleton_self _)
    have hInto := hRep.reached.of_inProgress rfl
    simp [hRep.operation, hRep.text, hMoves, hInto]
  | @feedback _ text hWork =>
    have hMoves := hRep.moves (mem_singleton.mpr hWork) (mem_singleton.mpr hWork)
    have hInto := hRep.reached.of_inProgress hWork
    have hLen := lengthWithin_text text (show 2000 ≤ 10000 by decide)
    simp [hRep.operation, hRep.text, hMoves, hInto, hLen]
  | @submit _ text ids hWork => exact hRep.submitted text (.inl rfl) rfl hWork
  | @complete text hWork => exact hRep.submitted text (.inr rfl) rfl hWork
  | @departmentReview _ approved reason reasoned hHead hReview =>
    have hAfter : (r.reviewedBy sub.scope.aiUserId approved reason.val sub.now).status ∈
        [RelationStatus.inProgress, .submitted] := by
      cases approved <;> simp [Relation.reviewedBy]
    have hMoves := hRep.moves (mem_singleton.mpr hReview) hAfter
    have hInto := hRep.reached.of_done (by
      simp only [mem_cons, not_mem_nil, or_false] at hAfter
      exact hAfter.imp_right .inl)
    have hReason : (on e.relationToStatus (· = .submitted) |||
        on e.text (fun s => btrim s ≠ [])).isTrue = true := by
      rw [isTrue_or, isTrue_on, isTrue_on, hRep.after, hRep.text]
      cases approved with
      | true => rfl
      | false =>
        have hne : reason.val ≠ [] := by simpa using reasoned
        have hTrim := btrim_ne_nil reason.stripped hne
        simp [hne, hTrim]
    have hKey : (on e.payload (·.hasKey "approved")).isTrue = true := by
      rw [isTrue_on, hRep.payload]
      rfl
    simpa [hRep.operation, hMoves, hInto, hKey] using hReason

theorem relationPayload_object (command : LifecycleCommand) (old new : Relation) :
    (command.relationPayload old new).isObject = true := by
  unfold LifecycleCommand.relationPayload
  split <;> rfl

theorem handleRelation_event (hStored : loaded.Stored sub) (hOpen : loaded.root.frozen = false)
    (hr : r ∈ loaded.relations) (hCarries : Carries sub.scope r sub.command)
    (hOk : (handleRelation sub loaded r files).result = .ok outcome) :
    (outcome.event sub loaded.root (some r)).check = true := by
  obtain ⟨table, reopened, status, files', hChange, hReopen, hStatus, rfl, -⟩ :=
    handleRelation_ok hOk
  obtain ⟨hKeyed, hCopies⟩ := changeRelation_ok hStored.tracks hr hChange
  obtain ⟨-, hParts, hCopies'⟩ := reopen_tracks hKeyed hCopies hReopen
  have hParts' : (parts reopened.2).Perm (parts loaded.table) := by
    rw [hParts]
    exact hCopies.parts_perm.symm.trans
      (hStored.tracks.copies.replace_parts hStored.keyed hr changed_part)
  -- the changed relation outlives the reopening, so the task has a status that it leads to
  have hMem : sub.changed r ∈ replaceRelation loaded.relations r (sub.changed r) :=
    mem_map.mpr ⟨r, hr, if_pos rfl⟩
  obtain ⟨y, hy, hSame, hKind⟩ := reopen_changed hKeyed hCopies hReopen hMem changed_assign_handedIn
  have hReached : Reached loaded.root (sub.changed r) status :=
    (handleRelation_status hStored.tracks.structured hParts' hCopies' hStatus hy).congr hSame hKind
  refine Event.check_of_current rfl rfl (relationPayload_object _ _ _)
    (relationCondition_some rfl rfl rfl) (open_status hOpen) ?_
  exact Reports.transition hCarries ⟨rfl, rfl, rfl, rfl, rfl, rfl, hReached⟩

theorem Outcome.event_check (hOpen : root.frozen = false) (hNone : outcome.eventRelation = none)
    (hShared : outcome.visibility = .shared) (hPayload : outcome.payload.isObject = true)
    (hTransition : (outcome.event sub root none).transition.isTrue = true) :
    (outcome.event sub root none).check = true := by
  refine Event.check_of_current rfl rfl hPayload ?_ (open_status hOpen) hTransition
  refine relationCondition_none ?_ rfl ?_ ?_ <;> simp [hNone, hShared]

theorem RootHandled.event_check (hOpen : loaded.root.frozen = false)
    (hOffer : sub.command.operation ∈ offered sub loaded none)
    (hHandled : RootHandled sub loaded files outcome written) :
    (outcome.event sub loaded.root none).check = true := by
  obtain ⟨-, hOffer⟩ := mem_offered_root hOffer
  -- all but the transition is the same for every command
  suffices hTransition : (outcome.event sub loaded.root none).transition.isTrue = true by
    cases hHandled <;> exact Outcome.event_check hOpen rfl rfl rfl hTransition
  cases hHandled with
  | @summary text _ _ _ hCmd =>
    have hLen := lengthWithin_text text (show 2000 ≤ 10000 by decide)
    have hInto : finalSubmissionStatus loaded.root ∈
        [LifecycleStatus.awaitingAcceptance, .completed] := by
      unfold finalSubmissionStatus
      split <;> simp
    simpa [hCmd, hLen] using hInto
  | confirmed hCmd =>
    have hAwait : loaded.root.status = .awaitingAcceptance := by
      simpa [hCmd] using hOffer
    simp [hCmd, hAwait]
  | @returned reason _ hCmd =>
    have hAwait : loaded.root.status = .awaitingAcceptance := by
      simpa [hCmd] using hOffer
    have hTrim := btrim_ne_nil reason.stripped (text_ne_nil reason)
    simp [hCmd, hAwait, hTrim]
  | @revised _ _ _ _ _ before after hCmd =>
    have hKeys : (Json.obj [("before", before), ("after", after)]).hasKey "before" = true ∧
        (Json.obj [("before", before), ("after", after)]).hasKey "after" = true := ⟨rfl, rfl⟩
    rcases open_cases hOpen with h | h | h | h | h <;> simp [hCmd, h, hKeys.1, hKeys.2]
  | @withdrawn reason hCmd =>
    have hTrim := btrim_ne_nil reason.stripped (text_ne_nil reason)
    simp [handleWithdraw, hCmd, hTrim]
  | @extended dueAt before hCmd =>
    have hKey : (Json.obj [("before_due_at", before), ("after_due_at", .int dueAt)]).hasKey
        "after_due_at" = true := rfl
    simp [hCmd, hKey]
  | @reassigned _ _ _ _ lead previous replacement hCmd =>
    have hKey : (Json.obj [("previous_relation_ids", previous),
        ("replacement_relation_ids", replacement)]).hasKey "replacement_relation_ids" = true := rfl
    have hInto : initialStatus lead.targetKind ∈
        [LifecycleStatus.assigned, .departmentPending] := by
      unfold initialStatus
      split <;> simp
    simpa [hCmd, hKey] using hInto

/-! ## The transaction -/

theorem prepare_current (hSound : task.Sound) (hModel : task.root.dispatchModelVersion = some 2)
    (hBefore : task.Before sub.now) (hOk : (prepare env sub task).result = .ok loaded) :
    loaded.Stored sub ∧ loaded.root = task.root ∧
      loaded.relations = loadRelations sub.scope (sub.clock.reading 2) task.relations ∧
      loaded.table = task.relations ∧ (prepare env sub task).rows = [] := by
  unfold prepare at hOk ⊢
  rw [hModel] at hOk ⊢
  cases hOk
  refine ⟨?_, rfl, rfl, rfl, rfl⟩
  have hNew : task.root.dispatchModelVersion ≠ none := by simp [hModel]
  exact {
    tracks := ⟨copies_loadRelations _ _ _, hSound.structured hNew⟩
    current := Root.current_of_check hSound.checked hNew
    checked := hSound.relations
    past := hBefore.relations
    created := hBefore.created
    updated := hBefore.updated }

theorem Scope.FreshAt.of_recheck {i j : Nat} {clock : Clock}
    (hLimit : scope.validUntil.isSome = true)
    (hFresh : recheckScope scope (clock.reading j) = .ok ()) (hLe : i ≤ j) :
    scope.FreshAt (clock.reading i) := by
  obtain ⟨limit, hEq⟩ := Option.isSome_iff_exists.mp hLimit
  exact ⟨limit, hEq, Int.le_trans (clock.mono i j hLe) (recheckScope_ok.mp hFresh limit hEq)⟩

section

variable (hSound : task.Sound) (hFit : sub.FitFor env task)
  (hModel : task.root.dispatchModelVersion = some 2) (hBefore : task.Before sub.now)
  (hLimit : sub.scope.validUntil.isSome = true)

include hSound hFit hModel hBefore hLimit

/-- **A mutation of a task of the current model writes rows that pass.** -/
theorem Mutation.rows {selected : Option Relation × LifecycleOperation}
    (hOpen : task.root.frozen = false)
    (hMut : Mutation env sub task files loaded selected outcome) :
    ∀ row ∈ (prepare env sub task).rows ++ (handle sub loaded selected.1 files).rows ++
      [.root (outcome.finalRoot sub loaded.root),
        .event (outcome.event sub loaded.root selected.1)], checkRow row = true := by
  obtain ⟨hStored, hRoot, hRels, hTable, hNone⟩ :=
    prepare_current hSound hModel hBefore hMut.prepared
  rw [← hRoot] at hOpen
  have hReplaces := hFit.replaces
  rw [← hRoot] at hReplaces
  -- All three kinds of rows, for a command on a relation and one on the task.
  suffices hAll : (∀ row ∈ (handle sub loaded selected.1 files).rows, checkRow row = true) ∧
      RowFits sub loaded.root outcome ∧
      (outcome.event sub loaded.root selected.1).check = true by
    obtain ⟨hRows, hFits, hEvent⟩ := hAll
    have hFinal := finalRoot_current hStored.current hOpen hStored.created
      (handle_frame hMut.handled) hFits
    intro row hRow
    simp only [hNone, nil_append, mem_append, mem_cons, not_mem_nil, or_false] at hRow
    rcases hRow with hRow | rfl | rfl
    · exact hRows row hRow
    · exact Root.check_iff.mpr (.inl hFinal)
    · exact hEvent
  have hHandled := hMut.handled
  have hOffer := hMut.offered
  have hChosen := hMut.chosen
  obtain ⟨relation, op⟩ := selected
  cases relation with
  | some r =>
    have hr := (selected_some hChosen).1
    have hCarries := carries_of_offered hChosen hOffer
    -- the scope was fresh at the end of the transaction, so it was when the rows were read
    have hCur : r ∈ current loaded.table := by
      rw [hTable]
      exact selected_stored (.of_recheck hLimit hMut.fresh (by decide)) hSound.relations
        (hRels ▸ hr) hOffer
    exact ⟨handleRelation_rows hStored hr hCur hCarries hHandled,
      handleRelation_fits hStored hOpen hr hCur hCarries hHandled,
      handleRelation_event hStored hOpen hr hCarries hHandled⟩
  | none =>
    simp only [selected_none hChosen] at hOffer
    have hCases := handleRoot_cases hHandled
    exact ⟨hCases.checked hStored hReplaces, hCases.fits hStored hOpen hReplaces,
      hCases.event_check hOpen hOffer⟩

theorem Commanded.checked {out : MutationResult × Task × List Attachment}
    (hCase : Commanded env sub task files out written) : ∀ row ∈ written, checkRow row = true := by
  cases hCase with
  | replayed => exact fun _ h => nomatch h
  | mutated _ hAdmit hMut =>
    exact hMut.rows hSound hFit hModel hBefore hLimit (checkAdmission_ok hAdmit).1

end

/-- **An accepted command violates no constraint.** In every state that the
service can reach, a command that the application lets through at a time not
before the stored timestamps writes only rows that pass the `CHECK` constraints,
so that none of them turns the result that the application has computed into
`workObjectLifecycleFailed`. Keys and the types of columns are not looked at. -/
theorem accepted_command_passes_checks {calls : ClientCall → Prop} {w : World} {t : List World}
    {ps : Procs World DispatchError} {call : CommandCall} {prepared : Prepared}
    {out : MutationResult × World} (hRun : ServiceRun env calls (w :: t) ps)
    (hPrep : PreparedFrom env call prepared (w :: t))
    (hTask : w.tasks call.workObjectId = some task)
    (hModel : task.root.dispatchModelVersion = some 2) (hBefore : task.Before call.now)
    (hOk : (w.command env (call.submission env prepared)).result = .ok out) :
    (∀ row ∈ (w.command env (call.submission env prepared)).rows, checkRow row = true) ∧
      (w.command env (call.submission env prepared)).run checkRow .workObjectLifecycleFailed =
        .ok out := by
  have hPast := history_sound hRun.steps
  have hSound := ((hPast w mem_cons_self).1 _ _ hTask).2
  have hFit := hPrep.fitFor (fun past hMem => (hPast past hMem).2) hTask
  have hRows : ∀ row ∈ (w.command env (call.submission env prepared)).rows,
      checkRow row = true := by
    unfold World.command at hOk ⊢
    rw [show w.tasks (call.submission env prepared).workObjectId = _ from hTask] at hOk ⊢
    obtain ⟨done, hDone, -⟩ := Script.result_bind_ok.mp hOk
    rw [Script.rows_bind_ok hDone]
    intro row hRow
    rcases mem_append.mp hRow with hRow | hNone
    · obtain ⟨_, ⟨⟩, hCase⟩ := commandTask_cases hDone
      exact hCase.checked hSound hFit hModel hBefore rfl row hRow
    · cases hNone
  exact ⟨hRows, (Script.run_eq_result hRows).trans hOk⟩

namespace Sample

def submission : CommandCall := commandCall worker 3 (.submit 2 report [])

end Sample

open Sample

/-- The worker submits the accepted task of the sample history: the submission
is let through, and it commits. -/
theorem accepted_command_passes_checks_sample :
    ∃ w ∈ history (inReview.take 3), ∃ prepared out,
      (w.command plainEnv (submission.submission plainEnv prepared)).run
        checkRow .workObjectLifecycleFailed = .ok out ∧ out.1.event.resultVersion = 4 := by
  obtain ⟨w, t, hEq, task, hTask, hModel, hCreated, hUpdated, hRels, member, -, prepared, hPrep,
      out, hOk, hVersion⟩ :=
    head_spec (h := history (inReview.take 3)) (P := fun w => ∃ task ∈ w.tasks ['t'],
      task.root.dispatchModelVersion = some 2 ∧ task.root.createdAt ≤ submission.now ∧
      task.root.updatedAt ≤ submission.now ∧
      (∀ r ∈ task.relations, r.createdAt ≤ submission.now) ∧
      ∃ member ∈ directory.memberships,
      ∃ prepared ∈ (prepareCommand plainEnv submission member task.root).toOption,
      ∃ out ∈ (w.command plainEnv (submission.submission plainEnv prepared)).result.toOption,
        out.1.event.resultVersion = 4) (by decide +kernel)
  obtain ⟨ps, hRun⟩ := history_run (inReview.take 3)
  rw [hEq] at hRun ⊢
  refine ⟨w, mem_cons_self, prepared, out, ?_, hVersion⟩
  exact (accepted_command_passes_checks hRun
    ⟨w, mem_cons_self, task, member, hTask, mem_toOption.mp hPrep⟩ hTask hModel
    ⟨hCreated, hUpdated, hRels⟩ (mem_toOption.mp hOk)).2

end EternalAI.Dispatch
