import EternalAI.Recurrence.Service

/-!
# Recurring series — the steps of the store

Whatever requests and workers are interleaved, the tables of series move by
whole transactions (`SeriesStep`). For one series a transaction does one of
four things: nothing, create it, change its rule, or move it on past an instant
whose occurrence is then recorded.

* `SeriesRun.steps` — the states of every interleaving are a run of such steps.
* `create_ok`, `change_ok`, `generateOne_ok` — what a committed transaction has
  done.
* `SeriesMove` — the same, for one series.
-/

namespace EternalAI.Recurrence

open Lib Dispatch List

variable {env : SeriesEnv} {cal : Calendar} {s s' : State} {t h : List State} {id : Uuid}
  {subject : Subject} {request : SeriesRequest} {key : Uuid} {now : Time} {row : SeriesRow}
  {result : SeriesMutationResult}

inductive SeriesStep (env : SeriesEnv) (cal : Calendar) : List State → State → Prop
  | outside {s s' : State} {t : List State} : Outside s s' → SeriesStep env cal (s :: t) s'
  | create {s s' : State} {t : List State} {subject : Subject} {request : SeriesRequest}
      {key : Uuid} {now : Time} {result : SeriesMutationResult} :
      s.create env cal subject request key now = .ok (result, s') → SeriesStep env cal (s :: t) s'
  | change {s s' : State} {t : List State} {subject : Subject} {id : Uuid} {change : Change}
      {ifMatch : String} {key : Uuid} {now : Time} {result : SeriesMutationResult} :
      s.change env cal subject id change ifMatch key now = .ok (result, s') →
      SeriesStep env cal (s :: t) s'
  | generate {s s' : State} {t : List State} {now : Time} {failed : List Uuid} {round : Round}
      {recorded : Option (Option OccurrenceState)} :
      s.generateOne env cal now failed round = .ok (recorded, s') → SeriesStep env cal (s :: t) s'

/-! ## The service takes only such steps -/

theorem SeriesStep.same : SeriesStep env cal (s :: t) s := .outside (.refl s)

theorem series_read_safe {α : Type} {f : State → α} :
    Safe Unused (SeriesStep env cal) (fun _ _ => True) (Prog.read f : Prog State Failure α) h :=
  Safe.read (fun _ _ => .same) fun _ _ _ _ => trivial

theorem validateTemplate_safe {validation : Validation} :
    Safe Unused (SeriesStep env cal) (fun _ _ => True)
      (validateTemplate env cal subject request validation) h :=
  Safe.andThen series_read_safe fun _ => Safe.ofExcept fun _ _ => trivial

theorem createSeries_safe {ack : Ack} {call : CreateCall} :
    Safe Unused (SeriesStep env cal) (fun _ _ => True) (createSeries env cal ack call) h := by
  refine Safe.andThen validateTemplate_safe fun _ => Safe.andThen series_read_safe fun _ => ?_
  exact Safe.transact (fun _ _ => .same) fun _ _ _ _ hOk => .create hOk

theorem changeSeries_safe {ack : Ack} {call : ChangeCall} :
    Safe Unused (SeriesStep env cal) (fun _ _ => True) (changeSeries env cal ack call) h := by
  refine Safe.andThen series_read_safe fun found => Safe.ofExcept_seq fun view _ => ?_
  refine Safe.seq (P := fun _ _ => True) ?_ fun _ _ _ _ => Safe.andThen series_read_safe
    fun _ => ?_
  · unfold validateChange
    split
    · exact validateTemplate_safe
    · exact trivial
  · exact Safe.transact (fun _ _ => .same) fun _ _ _ _ hOk => .change hOk

theorem generateRounds_safe (rounds : List Round) (failed : List Uuid)
    (summary : GenerationSummary) :
    Safe Unused (SeriesStep env cal) (fun _ _ => True)
      (generateRounds env cal now rounds failed summary) h := by
  induction rounds generalizing failed summary h with
  | nil => exact trivial
  | cons round rest ih =>
    have hRound : Safe Unused (SeriesStep env cal) (fun _ _ => True)
        (workerRound env cal now failed round) h :=
      Safe.transact (fun _ _ => .same) fun _ _ _ _ hOk => .generate hOk
    refine Safe.andThen (hRound.attempt (fun _ _ _ _ => trivial)
      fun _ _ _ => trivial) fun outcome => ?_
    cases outcome with
    -- a round that fails ends the worker, or the next one leaves its series out
    | error e => exact Safe.ite (fun _ => trivial) fun _ => ih _ _
    | ok recorded =>
      cases recorded with
      | none => exact trivial
      | some recorded => exact ih _ _

theorem seriesCall_safe (call : SeriesCall) :
    Safe Unused (SeriesStep env cal) (fun _ _ => True) (call.program env cal) h := by
  cases call with
  | create ack call => exact createSeries_safe.ended
  | change ack call => exact changeSeries_safe.ended
  | generate rounds =>
    exact (Safe.andThen series_read_safe fun _ => generateRounds_safe _ _ _).ended

/-- **Interleavings of owners and workers are runs of transactions.** -/
theorem SeriesRun.steps {ps : Procs State Failure} (hRun : SeriesRun env cal h ps) :
    Run Unused (SeriesStep env cal) h := by
  refine (PoolRun.refines (fun _ _ _ => .outside) (fun _ _ _ => .same) ?_ hRun).1
  rintro i p ⟨call, rfl⟩ h' -
  exact seriesCall_safe call

/-! ## What the transactions do -/

theorem owned_ok : s.owned subject id = .ok row ↔ s.series id = some row ∧
    row.tenantId = subject.tenantId ∧ row.creatorAiUserId = subject.aiUserId := by
  unfold State.owned
  cases hRow : s.series id with
  | none => simp
  | some found =>
    by_cases hOwn : found.tenantId = subject.tenantId ∧ found.creatorAiUserId = subject.aiUserId
    · simp only [if_pos hOwn, Except.ok.injEq, Option.some.injEq]
      exact ⟨fun hEq => ⟨hEq, hEq ▸ hOwn⟩, fun hEq => hEq.1⟩
    · simp only [if_neg hOwn, Option.some.injEq, reduceCtorEq, false_iff]
      rintro ⟨rfl, hThis⟩
      exact hOwn hThis

variable {view : SeriesView}

theorem validate_ok {view' : SeriesView} : cal.validate view = .ok view' ↔
    view' = view ∧ (cal view.request.timezone).isSome := by
  unfold Calendar.validate
  split
  · rename_i hZone
    simp only [hZone, and_true, Except.ok.injEq]
    exact eq_comm
  · simp_all

structure Shows (row : SeriesRow) (view : SeriesView) : Prop where
  request : view.request = row.request
  seriesId : view.seriesId = row.seriesId
  version : view.version = row.currentVersion
  nextDueAt : view.nextDueAt = row.nextDueAt

theorem view_ok (hOk : s.view cal row = .ok view) :
    Shows row view ∧ (cal row.request.timezone).isSome ∧
      templateAttachments row.tenantId row.creatorAiUserId row.request.template.attachmentIds
        s.tasks.files = .ok view.attachments := by
  obtain ⟨attachments, hFound, hOk⟩ := bind_ok.mp hOk
  obtain ⟨rfl, hZone⟩ := validate_ok.mp hOk
  exact ⟨⟨rfl, rfl, rfl, rfl⟩, hZone, hFound⟩

variable {operation : Operation} {fingerprint : String}

theorem replay_none (hOk : s.replay cal subject id operation key fingerprint = .ok none) :
    s.versionOf subject id key = none := by
  unfold State.replay at hOk
  split at hOk
  · assumption
  · split at hOk
    · obtain ⟨series, -, hOk⟩ := bind_ok.mp hOk
      cases hOk
    · cases hOk

def versionRow (subject : Subject) (row : SeriesRow) (operation : Operation) (key : Uuid)
    (fingerprint : String) (now : Time) (view : SeriesView) : VersionRow where
  tenantId := subject.tenantId
  seriesId := row.seriesId
  version := row.currentVersion
  operation := operation
  actorAiUserId := subject.aiUserId
  occurredAt := now
  snapshot := view
  idempotencyKey := key
  requestFingerprint := fingerprint

def State.committed (s : State) (row : SeriesRow) (v : VersionRow) : State :=
  { s.put row with versions := s.versions ++ [v] }

theorem commit_ok
    (hOk : s.commit cal subject row operation key fingerprint now = .ok (result, s')) :
    ∃ view, s.view cal row = .ok view ∧ result = ⟨view, false⟩ ∧
      (¬ s.versions.any (versionRow subject row operation key fingerprint now view).collides) ∧
      s' = s.committed row (versionRow subject row operation key fingerprint now view) := by
  unfold State.commit at hOk
  simp only [bind_ok] at hOk
  obtain ⟨view, hView, after, hRecord, hOk⟩ := hOk
  cases hOk
  obtain ⟨⟨⟩, hFree, hRecord⟩ := bind_ok.mp hRecord
  cases hRecord
  exact ⟨view, hView, rfl, ensure_ok.mp hFree, rfl⟩

theorem create_ok (hOk : s.create env cal subject request key now = .ok (result, s')) :
    (s' = s ∧ ∃ old, s.series (env.seriesId subject.tenantId subject.aiUserId key) = some old ∧
      s.answerCreate env cal subject request key = .ok result) ∨
    ∃ directory due, firstDue cal request now = .ok due ∧
      s.series (env.seriesId subject.tenantId subject.aiUserId key) = none ∧
      s.commit cal subject (newRow env subject directory request key due now) .create key
        (env.createFingerprint request) now = .ok (result, s') := by
  unfold State.create at hOk
  simp only [bind_ok] at hOk
  obtain ⟨directory, -, -, -, due, hDue, hOk⟩ := hOk
  cases hOld : s.series (env.seriesId subject.tenantId subject.aiUserId key) with
  | some old =>
    simp only [newRow, hOld] at hOk
    simp only [bind_ok] at hOk
    obtain ⟨⟨⟩, -, answer, hAnswer, hOk⟩ := hOk
    cases hOk
    exact .inl ⟨rfl, old, rfl, hAnswer⟩
  | none =>
    refine .inr ⟨directory, due, hDue, rfl, ?_⟩
    simpa only [newRow, hOld] using hOk

variable {change : Change} {ifMatch : String}

theorem change_ok (hOk : s.change env cal subject id change ifMatch key now = .ok (result, s')) :
    (s' = s ∧ s.replay cal subject id change.operation key (env.changeFingerprint id change) =
      .ok (some result)) ∨
    ∃ row old due, s.owned subject id = .ok row ∧ s.view cal row = .ok old ∧
      s.versionOf subject id key = none ∧ ifMatch = old.etag env ∧
      change.nextDue cal old now = .ok due ∧
      s.commit cal subject (row.changed change due now) change.operation key
        (env.changeFingerprint id change) now = .ok (result, s') := by
  unfold State.change at hOk
  simp only [bind_ok] at hOk
  obtain ⟨row, hOwned, old, hView, replayed, hReplay, hOk⟩ := hOk
  cases replayed with
  | some answer =>
    cases hOk
    exact .inl ⟨rfl, hReplay⟩
  | none =>
    simp only [bind_ok] at hOk
    obtain ⟨⟨⟩, hMatch, -, -, due, hDue, hOk⟩ := hOk
    obtain ⟨⟨⟩, -, hMatch⟩ := bind_ok.mp hMatch
    exact .inr ⟨row, old, due, hOwned, hView, replay_none hReplay, ensure_ok.mp hMatch, hDue, hOk⟩

variable {failed : List Uuid}

theorem dueRow_ok {pick : Uuid} {due : Time} (hDue : s.dueRow now failed pick = some (row, due)) :
    s.series pick = some row ∧ row.nextDueAt = some due ∧ row.request.enabled = true ∧
      due ≤ now := by
  unfold State.dueRow at hDue
  split at hDue
  · cases hDue
  · rename_i found hRow
    split at hDue
    · cases hDue
    · rename_i instant hNext
      split at hDue
      · rename_i hIf
        cases hDue
        exact ⟨hRow, hNext, hIf.1, hIf.2.1⟩
      · cases hDue

def occurrenceRow (row : SeriesRow) (scheduled : Time) (round : Round) (state : OccurrenceState) :
    Occurrence where
  occurrenceId := round.occurrenceId
  tenantId := row.tenantId
  seriesId := row.seriesId
  scheduledAt := scheduled
  seriesVersion := row.currentVersion
  state := state

variable {round : Round} {tenantId : Str}

theorem insertTasks_uploads {prepared : PreparedDispatch} {tasks : World}
    {items : List OccurrenceItem}
    (hOk : s.insertTasks env tenantId round prepared = .ok (tasks, items)) :
    filesAt none tasks.files = filesAt none s.tasks.files := by
  unfold State.insertTasks at hOk
  simp only [bind_ok] at hOk
  obtain ⟨⟨answer, after⟩, hInsert, linked, -, hOk⟩ := hOk
  cases hOk
  have hRun : (s.tasks.insertPrepared env.dispatch prepared round.draws).run checkRow
      .workObjectStoreUnavailable = .ok (answer, after) := mapError_ok.mp hInsert
  rcases insertPrepared_ok hRun with rfl | ⟨inserted, hIns, -, hFiles⟩
  · rfl
  · rw [hFiles]
    exact insertRecords_filesAt _ (fun _ hId => by cases hId) hIns

variable {scheduled : Time}

theorem settle_ok {recorded : Option OccurrenceState}
    (hOk : s.settle env cal row scheduled now round = .ok (recorded, s')) :
    (s' = s ∧ recorded = none ∧ (s.occurrenceAt row.tenantId row.seriesId scheduled).isSome) ∨
    ∃ state tasks items, recorded = some state ∧
      s.occurrenceAt row.tenantId row.seriesId scheduled = none ∧
      filesAt none tasks.files = filesAt none s.tasks.files ∧
      s' = { s with
        tasks := tasks
        items := items
        occurrences := s.occurrences ++ [occurrenceRow row scheduled round state] } := by
  unfold State.settle at hOk
  cases hOld : s.occurrenceAt row.tenantId row.seriesId scheduled with
  | some old =>
    simp only [hOld] at hOk
    cases hOk
    exact .inl ⟨rfl, rfl, rfl⟩
  | none =>
    simp only [hOld] at hOk
    obtain ⟨⟨state, after⟩, hRecord, hOk⟩ := bind_ok.mp hOk
    cases hOk
    unfold State.recordOccurrence at hRecord
    simp only [bind_ok] at hRecord
    obtain ⟨⟨⟩, -, ⟨⟩, -, ⟨outcome, tasks, items⟩, hOutcome, hRecord⟩ := hRecord
    cases hRecord
    refine .inr ⟨outcome, tasks, items, rfl, rfl, ?_, rfl⟩
    -- tasks come with copies of the template's files; a blocked occurrence has no tasks
    unfold blockedOr at hOutcome
    split at hOutcome
    · rename_i inserted hInserted
      obtain ⟨prepared, -, hTasks⟩ := bind_ok.mp hInserted
      obtain ⟨-, rfl⟩ := Prod.mk.inj (Except.ok.inj hOutcome)
      exact insertTasks_uploads hTasks
    · split at hOutcome
      · obtain ⟨-, hRest⟩ := Prod.mk.inj (Except.ok.inj hOutcome)
        rw [← (Prod.mk.inj hRest).1]
      · cases hOutcome

variable {recorded : Option (Option OccurrenceState)}

/-- A round finds nothing to do, or settles the due instant of one series and
moves the series on. -/
theorem generateOne_ok (hOk : s.generateOne env cal now failed round = .ok (recorded, s')) :
    s' = s ∨ ∃ row scheduled due state mid, s.dueRow now failed round.pick = some (row, scheduled) ∧
      s.settle env cal row scheduled now round = .ok (state, mid) ∧
      nextScheduled cal row.request ⟨scheduled, false, true⟩ = .ok due ∧
      s' = mid.put (row.advanced due) := by
  unfold State.generateOne at hOk
  cases hDue : s.dueRow now failed round.pick with
  | none =>
    rw [hDue] at hOk
    exact .inl (Prod.mk.inj (Except.ok.inj hOk)).2.symm
  | some found =>
    obtain ⟨row, scheduled⟩ := found
    rw [hDue] at hOk
    simp only [bind_ok] at hOk
    obtain ⟨view, -, ⟨state, mid⟩, hSettle, due, hNext, hOk⟩ := hOk
    exact .inr ⟨row, scheduled, due, state, mid, rfl, hSettle, hNext,
      (Prod.mk.inj (Except.ok.inj hOk)).2.symm⟩

/-! ## One series -/

def State.occurrencesOf (s : State) (id : Uuid) : List Occurrence :=
  s.occurrences.filter (·.seriesId = id)

def State.versionsOf (s : State) (id : Uuid) : List VersionRow :=
  s.versions.filter (·.seriesId = id)

/-- The instant was recorded before, or its occurrence is recorded now. -/
def Settled (s s' : State) (id : Uuid) (row : SeriesRow) (scheduled : Time) : Prop :=
  (s'.occurrencesOf id = s.occurrencesOf id ∧
    ∃ o ∈ s.occurrencesOf id, o.scheduledAt = scheduled) ∨
  ∃ o, (∀ p ∈ s.occurrencesOf id, p.tenantId = row.tenantId → p.scheduledAt ≠ scheduled) ∧
    o.tenantId = row.tenantId ∧ o.seriesId = id ∧ o.scheduledAt = scheduled ∧
    s'.occurrencesOf id = s.occurrencesOf id ++ [o]

inductive SeriesMove (env : SeriesEnv) (cal : Calendar) (s s' : State) (id : Uuid) : Prop
  | kept : s'.series id = s.series id → s'.versionsOf id = s.versionsOf id →
      s'.occurrencesOf id = s.occurrencesOf id → SeriesMove env cal s s' id
  | created {subject : Subject} {directory : Str} {request : SeriesRequest} {key : Uuid}
      {due : Option Time} {now : Time} {view : SeriesView} : s.series id = none →
      firstDue cal request now = .ok due →
      env.seriesId subject.tenantId subject.aiUserId key = id →
      s.view cal (newRow env subject directory request key due now) = .ok view →
      s'.series id = some (newRow env subject directory request key due now) →
      s'.versionsOf id = s.versionsOf id ++ [versionRow subject
        (newRow env subject directory request key due now) .create key
        (env.createFingerprint request) now view] →
      s'.occurrencesOf id = s.occurrencesOf id → SeriesMove env cal s s' id
  | changed {subject : Subject} {row : SeriesRow} {old view : SeriesView} {change : Change}
      {key : Uuid} {due : Option Time} {now : Time} : s.owned subject id = .ok row →
      s.view cal row = .ok old → s.versionOf subject id key = none →
      change.nextDue cal old now = .ok due → s.view cal (row.changed change due now) = .ok view →
      s'.series id = some (row.changed change due now) →
      s'.versionsOf id = s.versionsOf id ++ [versionRow subject (row.changed change due now)
        change.operation key (env.changeFingerprint id change) now view] →
      s'.occurrencesOf id = s.occurrencesOf id → SeriesMove env cal s s' id
  | advanced {row : SeriesRow} {scheduled due : Time} : s.series id = some row →
      row.request.enabled = true → row.nextDueAt = some scheduled →
      nextScheduled cal row.request ⟨scheduled, false, true⟩ = .ok due →
      s'.series id = some (row.advanced due) →
      s'.versionsOf id = s.versionsOf id →
      Settled s s' id row scheduled → SeriesMove env cal s s' id

def Keyed (s : State) : Prop := ∀ id row, s.series id = some row → row.seriesId = id

variable {v : VersionRow}

theorem committed_versionsOf_self (hId : v.seriesId = id) :
    (s.committed row v).versionsOf id = s.versionsOf id ++ [v] := by
  unfold State.committed State.versionsOf
  rw [filter_append, filter_cons_of_pos (by simpa using hId)]
  rfl

theorem committed_kept (hRow : id ≠ row.seriesId) (hId : v.seriesId ≠ id) :
    SeriesMove env cal s (s.committed row v) id := by
  refine .kept (State.put_series_of_ne s hRow) ?_ rfl
  unfold State.committed State.versionsOf
  rw [filter_append, filter_cons_of_neg (by simpa using hId)]
  simp

theorem create_move (hOk : s.create env cal subject request key now = .ok (result, s')) :
    SeriesMove env cal s s' id := by
  rcases create_ok hOk with ⟨rfl, -⟩ | ⟨directory, due, hDue, hNone, hCommit⟩
  · exact .kept rfl rfl rfl
  · obtain ⟨view, hView, -, -, rfl⟩ := commit_ok hCommit
    by_cases hId : id = env.seriesId subject.tenantId subject.aiUserId key
    · -- the id of a new series is computed from its owner and key
      subst hId
      refine .created hNone hDue rfl hView ?_ (committed_versionsOf_self rfl) rfl
      exact State.put_series_self s (newRow env subject directory request key due now)
    · exact committed_kept hId (Ne.symm hId)

theorem change_move (hKeyed : Keyed s) {other : Uuid}
    (hOk : s.change env cal subject other change ifMatch key now = .ok (result, s')) :
    SeriesMove env cal s s' id := by
  rcases change_ok hOk with ⟨rfl, -⟩ | ⟨row, old, due, hOwned, hOld, hNew, -, hDue, hCommit⟩
  · exact .kept rfl rfl rfl
  · obtain ⟨view, hView, -, -, rfl⟩ := commit_ok hCommit
    have hSeries : row.seriesId = other := hKeyed other row (owned_ok.mp hOwned).1
    by_cases hId : id = other
    · subst hId
      refine .changed hOwned hOld hNew hDue hView ?_ (committed_versionsOf_self hSeries) rfl
      exact hSeries ▸ State.put_series_self s (row.changed change due now)
    · refine committed_kept (fun hEq => hId (hEq.trans hSeries)) fun hEq => hId ?_
      exact (hSeries.symm.trans hEq).symm

theorem occurrenceAt_isSome (hSome : (s.occurrenceAt tenantId id scheduled).isSome) :
    ∃ o ∈ s.occurrencesOf id, o.scheduledAt = scheduled := by
  obtain ⟨o, hFind⟩ := Option.isSome_iff_exists.mp hSome
  have hThis := find?_some hFind
  simp only [Bool.and_eq_true, beq_iff_eq] at hThis
  exact ⟨o, mem_filter.mpr ⟨mem_of_find?_eq_some hFind, by simpa using hThis.1.2⟩, hThis.2⟩

theorem occurrenceAt_none (hNone : s.occurrenceAt tenantId id scheduled = none) :
    ∀ o ∈ s.occurrencesOf id, o.tenantId = tenantId → o.scheduledAt ≠ scheduled := by
  intro o hMem hTenant hTime
  obtain ⟨hAll, hId⟩ := mem_filter.mp hMem
  refine find?_eq_none.mp hNone o hAll ?_
  simpa [hTenant, hTime] using hId

theorem generateOne_move (hKeyed : Keyed s)
    (hOk : s.generateOne env cal now failed round = .ok (recorded, s')) :
    SeriesMove env cal s s' id := by
  rcases generateOne_ok hOk with rfl | ⟨row, scheduled, due, state, mid, hDue, hSettle, hNext, rfl⟩
  · exact .kept rfl rfl rfl
  · obtain ⟨hRow, hAt, hOn, -⟩ := dueRow_ok hDue
    have hSeries := hKeyed _ row hRow
    -- Settling the occurrence touches neither series nor versions.
    have hMid : mid.series = s.series ∧ mid.versions = s.versions := by
      rcases settle_ok hSettle with ⟨rfl, -, -⟩ | ⟨-, -, -, -, -, -, rfl⟩ <;> exact ⟨rfl, rfl⟩
    by_cases hId : id = round.pick
    · subst hId
      refine .advanced hRow hOn hAt hNext ?_ ?_ ?_
      · exact hSeries ▸ State.put_series_self mid (row.advanced due)
      · exact congrArg (List.filter _) hMid.2
      · rw [← hSeries]
        rcases settle_ok hSettle with ⟨rfl, -, hThere⟩ | ⟨outcome, tasks, items, -, hNew, -, rfl⟩
        · exact .inl ⟨rfl, occurrenceAt_isSome hThere⟩
        · refine .inr ⟨occurrenceRow row scheduled round outcome, occurrenceAt_none hNew, rfl, rfl,
            rfl, ?_⟩
          show List.filter _ (s.occurrences ++ [_]) = _
          rw [filter_append, filter_cons_of_pos (by simp [occurrenceRow])]
          rfl
    · -- the other series: what is written has the id of the one that was picked
      have hNe : id ≠ (row.advanced due).seriesId := fun hEq => hId (hEq.trans hSeries)
      refine .kept ?_ (congrArg (List.filter _) hMid.2) ?_
      · exact (State.put_series_of_ne mid hNe).trans (congrFun hMid.1 id)
      · rcases settle_ok hSettle with ⟨rfl, -, -⟩ | ⟨outcome, tasks, items, -, -, -, rfl⟩
        · rfl
        · show List.filter _ (s.occurrences ++ [_]) = _
          rw [filter_append, filter_cons_of_neg
            fun hEq => hNe (of_decide_eq_true hEq).symm]
          simp [State.occurrencesOf]

/-- **What a step does to a series.** -/
theorem SeriesStep.move (hKeyed : Keyed s) (hStep : SeriesStep env cal (s :: t) s') (id : Uuid) :
    SeriesMove env cal s s' id := by
  cases hStep with
  | outside hOut =>
    refine .kept (by rw [hOut.series]) ?_ ?_
    · exact congrArg (List.filter _) hOut.versions
    · exact congrArg (List.filter _) hOut.occurrences
  | create hOk => exact create_move hOk
  | change hOk => exact change_move hKeyed hOk
  | generate hOk => exact generateOne_move hKeyed hOk

end EternalAI.Recurrence
