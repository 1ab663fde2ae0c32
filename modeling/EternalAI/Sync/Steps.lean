import EternalAI.Sync.Service

/-!
# OA synchronisation — the steps of the store

Whatever synchronisations are interleaved, the tables move by whole
transactions (`SyncStep`).

* `SyncRun.steps` — the states of every interleaving are a run of such steps.
* `RowMove` — what a step does to the row of one stream.
* `upsertPending_ok`, `observe_ok` — what the two loops of a snapshot have
  written.
* `apply_ok` — what is known of a snapshot that was applied.
-/

namespace EternalAI.Sync

open Lib List
open Dispatch (Str Time)

variable {s s' : State} {t h : List State} {ticket : OASyncTicket} {displayName : Str}
  {collection : OAPendingWorkSnapshotCollection} {fetchedAt : Time}
  {draw : SourceText → Option Str} {wr : Writing} {works works' : List Work}

inductive SyncStep : List State → State → Prop
  | same {s : State} {t : List State} : SyncStep (s :: t) s
  | began {s : State} {t : List State} (subject : OASyncSubject) (stream : OASyncStream)
      (startedAt : Time) : SyncStep (s :: t) (s.begin subject stream startedAt).2
  | applied {s s' : State} {t : List State} {ticket : OASyncTicket} {displayName : Str}
      {collection : OAPendingWorkSnapshotCollection} {fetchedAt : Time}
      {draw : SourceText → Option Str} {outcome : Outcome} :
      s.apply ticket displayName collection fetchedAt draw = .ok (outcome, s') →
      SyncStep (s :: t) s'
  | failed {s : State} {t : List State} (ticket : OASyncTicket) (code : OASyncFailureCode)
      (finishedAt : Time) : SyncStep (s :: t) (s.finishFailure ticket code finishedAt)
  | upserted {s s' : State} {t : List State} {wr : Writing}
      {snapshots : List OAPendingWorkSnapshot} :
      s.upsert wr snapshots = .ok ((), s') → SyncStep (s :: t) s'

/-! ## The service takes only such steps -/

abbrev Acts {α : Type} (p : Prog State Failure α) (h : List State) : Prop :=
  Safe Unused SyncStep (fun _ _ => True) p h

variable {ack : Ack} {stream : OASyncStream}

theorem begin_acts {subject : OASyncSubject} {at' : Time} :
    Acts (beginOaSync ack subject stream at') h := by
  refine Safe.transact (fun _ _ => .same) fun s t a s' hOk => ?_
  cases hOk
  exact .began subject stream at'

theorem apply_acts :
    Acts (applyOaPendingSnapshot ack ticket displayName collection fetchedAt draw) h :=
  Safe.transact (fun _ _ => .same) fun _ _ _ _ hOk => .applied (mapError_ok.mp hOk)

theorem finish_acts {code : OASyncFailureCode} {finishedAt : Time} :
    Acts (finishOaSyncFailure ack ticket code finishedAt) h := by
  refine Safe.transact (fun _ _ => .same) fun s t a s' hOk => ?_
  cases hOk
  exact .failed ticket code finishedAt

section

variable (sync : Synchronisation)

theorem takeTicket_acts : Acts (takeTicket sync) h := by
  refine Safe.ite (fun _ => ?_) fun _ => trivial
  split
  · exact trivial
  · refine Safe.andThen begin_acts.caught fun begun => ?_
    split <;> exact trivial

theorem recordSyncFailure_acts (ticket : Option OASyncTicket) (code : OASyncFailureCode) :
    Acts (recordSyncFailure sync ticket code) h := by
  cases ticket with
  | none => exact trivial
  | some ticket =>
    refine Safe.andThen finish_acts.caught fun recorded => ?_
    cases recorded with
    | ok _ => exact trivial
    | error _ => exact Safe.require fun _ => trivial

theorem writeSnapshot_acts (ticket : Option OASyncTicket) :
    Acts (writeSnapshot sync ticket collection) h := by
  cases ticket with
  | none =>
    refine Safe.andThen (Safe.transact (fun _ _ => .same) fun _ _ _ _ hOk => ?_) fun _ => trivial
    exact .upserted (mapError_ok.mp hOk)
  | some ticket => exact apply_acts

theorem syncSnapshots_acts : Acts (syncSnapshots sync) h := by
  refine Safe.seq (takeTicket_acts sync) fun ticket h' _ _ => ?_
  have hFailure : ∀ code (e : Failure) h'', Acts (do
      recordSyncFailure sync ticket code
      (.raise e : Prog State Failure Unit)) h'' := fun code e h'' =>
    Safe.andThen (recordSyncFailure_acts sync ticket code) fun _ => trivial
  cases sync.answer with
  -- nothing usable was fetched, and the attempt is closed as failed
  | raised | failed error | invalid => exact hFailure _ _ _
  | complete collection =>
    refine Safe.seq (writeSnapshot_acts sync ticket).caught fun written _ _ _ => ?_
    split
    · exact trivial
    · exact trivial
    · exact trivial
    · exact hFailure _ _ _
    · exact hFailure _ _ _

end

theorem syncCall_acts (call : SyncCall) : Acts call.program h := by
  cases call with
  | synchronises sync => exact syncSnapshots_acts sync
  | begins ack subject stream startedAt => exact begin_acts.ended
  | applies ack ticket displayName collection fetchedAt draw => exact apply_acts.ended
  | fails ack ticket code finishedAt => exact finish_acts

/-- **Interleavings of synchronisations are runs of transactions.** -/
theorem SyncRun.steps {ps : Procs State Failure} (hRun : SyncRun h ps) : Run Unused SyncStep h := by
  refine (PoolRun.refines ?_ (fun _ _ _ => .same) ?_ hRun).1
  · rintro s t s' rfl
    exact .same
  · rintro i p ⟨call, rfl⟩ h' -
    exact syncCall_acts call

/-! ## The row of a stream -/

/-- The row of a stream, or that of one nobody has synchronised. -/
def State.row (s : State) (user : Str) (stream : OASyncStream) : SyncRow :=
  (s.sync user stream).getD SyncRow.never

variable {user : Str} {row : SyncRow}

@[simp] theorem setSync_self : (s.setSync user stream row).sync user stream = some row := by
  simp [State.setSync]

theorem setSync_of_ne {user' : Str} {stream' : OASyncStream}
    (hne : ¬(user' = user ∧ stream' = stream)) :
    (s.setSync user stream row).sync user' stream' = s.sync user' stream' := by
  simp [State.setSync, hne]

/-- What a step may do to the row of one stream: nothing, begin an attempt,
publish the issued generation, or record that the issued attempt failed. -/
inductive RowMove : Option SyncRow → Option SyncRow → Prop
  | kept {row : Option SyncRow} : RowMove row row
  | begun {row : Option SyncRow} (startedAt : Time) :
      RowMove row (some (SyncRow.begun startedAt row))
  | published {row : SyncRow} {startedAt fetchedAt : Time} :
      row.appliedGeneration < row.issuedGeneration → row.lastAttemptStartedAt = some startedAt →
      startedAt ≤ fetchedAt →
      RowMove (some row) (some (row.published row.issuedGeneration fetchedAt))
  | failed {row : SyncRow} {startedAt finishedAt : Time} {code : OASyncFailureCode} :
      row.appliedGeneration < row.issuedGeneration → row.lastAttemptStartedAt = some startedAt →
      (code = .clockInvalid ∨ startedAt ≤ finishedAt) →
      RowMove (some row) (some (row.failedWith code finishedAt))

/-! ## The OA rows that are written -/

/-- What a write of snapshots does to the OA rows: every row keeps its id and
its key, and what is not as before is the user's and was fetched now. -/
structure Rewritten (wr : Writing) (works works' : List Work) : Prop where
  kept : ∀ w ∈ works, ∃ w' ∈ works', w'.workObjectId = w.workObjectId ∧ w'.key = w.key
  origin : ∀ w' ∈ works', w' ∈ works ∨
    (w'.assigneeAiUserId = wr.aiUserId ∧ w'.sourceFetchedAt = wr.fetchedAt)
  keys : (works.map Work.key).Nodup → (works'.map Work.key).Nodup

theorem Rewritten.refl (wr : Writing) (works : List Work) : Rewritten wr works works :=
  ⟨fun w hw => ⟨w, hw, rfl, rfl⟩, fun _ hw => .inl hw, fun hKeys => hKeys⟩

theorem Rewritten.trans {works'' : List Work} (hFirst : Rewritten wr works works')
    (hSecond : Rewritten wr works' works'') : Rewritten wr works works'' := by
  refine ⟨fun w hw => ?_, fun w' hw' => ?_, fun hKeys => hSecond.keys (hFirst.keys hKeys)⟩
  · obtain ⟨w₁, hw₁, hId₁, hKey₁⟩ := hFirst.kept w hw
    obtain ⟨w₂, hw₂, hId₂, hKey₂⟩ := hSecond.kept w₁ hw₁
    exact ⟨w₂, hw₂, hId₂.trans hId₁, hKey₂.trans hKey₁⟩
  · rcases hSecond.origin w' hw' with hOld | hNew
    · exact hFirst.origin w' hOld
    · exact .inr hNew

/-- The user has a row of this reference, and it was fetched now. -/
def Refreshed (wr : Writing) (ref : SourceText) (works : List Work) : Prop :=
  (wr.aiUserId, ref) ∈ works.map Work.key ∧
    ∀ w ∈ works, w.key = (wr.aiUserId, ref) → w.sourceFetchedAt = wr.fetchedAt

theorem Refreshed.rewritten {ref : SourceText} (hRef : Refreshed wr ref works)
    (hWrite : Rewritten wr works works') : Refreshed wr ref works' := by
  obtain ⟨hMem, hAll⟩ := hRef
  obtain ⟨w, hw, hKey⟩ := mem_map.mp hMem
  obtain ⟨w', hw', -, hKey'⟩ := hWrite.kept w hw
  refine ⟨mem_map.mpr ⟨w', hw', hKey'.trans hKey⟩, fun w'' hw'' hKey'' => ?_⟩
  rcases hWrite.origin w'' hw'' with hOld | ⟨-, hNow⟩
  · exact hAll w'' hOld hKey''
  · exact hNow

theorem Writing.updated_key (wr : Writing) (snapshot : OAPendingWorkSnapshot) (w : Work) :
    (wr.updated snapshot w).key = w.key := rfl

theorem upsertOne_ok {snapshot : OAPendingWorkSnapshot}
    (hOk : wr.upsertOne works snapshot = .ok works') :
    Rewritten wr works works' ∧ Refreshed wr snapshot.sourceRef works' := by
  unfold Writing.upsertOne at hOk
  split at hOk
  · cases hOk
  · rename_i workObjectId hDraw
    obtain ⟨-, hEq⟩ := ensure_bind_ok.mp hOk
    cases hEq
    refine ⟨⟨fun w hw => ?_, fun w' hw' => ?_, fun hKeys => ?_⟩,
      key_mem_upsert (wr.updated_key snapshot), fun w hw hKey => ?_⟩
    · -- on a conflict the row is updated in place, and keeps its id
      by_cases hSame : w.key = (wr.inserted workObjectId snapshot).key
      · exact ⟨_, mem_upsert.mpr (.inr (.inl ⟨w, hw, hSame, rfl⟩)), rfl, rfl⟩
      · exact ⟨w, mem_upsert.mpr (.inl ⟨hw, hSame⟩), rfl, rfl⟩
    · rcases mem_upsert.mp hw' with ⟨hOld, -⟩ | ⟨z, -, hKey, rfl⟩ | ⟨-, rfl⟩
      · exact .inl hOld
      · exact .inr ⟨(Prod.mk.inj hKey).1, rfl⟩
      · exact .inr ⟨rfl, rfl⟩
    · exact nodup_map_upsert (wr.updated_key snapshot) hKeys fun hNew => hNew
    · rcases mem_upsert.mp hw with ⟨-, hNe⟩ | ⟨z, -, -, rfl⟩ | ⟨-, rfl⟩
      · exact absurd hKey hNe
      · rfl
      · rfl

/-- The loop over the snapshots: every reference of the collection is fetched
now. -/
theorem upsertPending_ok {snapshots : List OAPendingWorkSnapshot}
    (hOk : wr.upsertPending snapshots works = .ok works') :
    Rewritten wr works works' ∧ ∀ sn ∈ snapshots, Refreshed wr sn.sourceRef works' := by
  unfold Writing.upsertPending at hOk
  induction snapshots generalizing works with
  | nil =>
    cases hOk
    exact ⟨.refl wr _, fun sn hsn => nomatch hsn⟩
  | cons sn rest ih =>
    obtain ⟨works₁, hFirst, hRest⟩ := bind_ok.mp hOk
    obtain ⟨hWrite, hRef⟩ := upsertOne_ok hFirst
    obtain ⟨hWrites, hRefs⟩ := ih hRest
    refine ⟨hWrite.trans hWrites, fun sn' hsn' => ?_⟩
    rcases mem_cons.mp hsn' with rfl | hsn'
    · -- the writes that follow fetch rows now as well
      exact hRef.rewritten hWrites
    · exact hRefs sn' hsn'

/-! ## The observations that are written -/

variable {new : Observation}

/-- The update on conflict makes the observation the selected one, when both are
of one work object. -/
theorem Observation.merged_eq {old : Observation} (hKey : old.key = new.key)
    (hId : old.workObjectId = new.workObjectId) : new.merged old = new := by
  obtain ⟨hUser, hRef⟩ := Prod.mk.inj hKey
  rw [Observation.merged, if_pos hId, hUser, hRef, hId]

variable {observations observations' : List Observation}

theorem observeOne_ok (hOk : observeOne observations new = .ok observations')
    (hSame : ∀ o ∈ observations, o.key = new.key → o.workObjectId = new.workObjectId)
    (o : Observation) : o ∈ observations' ↔ o = new ∨ (o ∈ observations ∧ o.key ≠ new.key) := by
  obtain ⟨-, hEq⟩ := ensure_bind_ok.mp hOk
  cases hEq
  rw [mem_upsert]
  constructor
  · rintro (hOld | ⟨z, hz, hKey, rfl⟩ | ⟨-, rfl⟩)
    · exact .inr hOld
    · exact .inl (Observation.merged_eq hKey (hSame z hz hKey))
    · exact .inl rfl
  · rintro (rfl | hOld)
    · by_cases hThere : o.key ∈ observations.map Observation.key
      · obtain ⟨z, hz, hKey⟩ := mem_map.mp hThere
        exact .inr (.inl ⟨z, hz, hKey, (Observation.merged_eq hKey (hSame z hz hKey)).symm⟩)
      · exact .inr (.inr ⟨hThere, rfl⟩)
    · exact .inl hOld

/-- The statement on the observations: the selected rows are in the table, and
all others are as before. -/
theorem observe_ok {news : List Observation}
    (hOk : news.foldlM observeOne observations = .ok observations')
    (hKeys : (news.map Observation.key).Nodup)
    (hSame : ∀ new ∈ news, ∀ o ∈ observations, o.key = new.key →
      o.workObjectId = new.workObjectId) (o : Observation) :
    o ∈ observations' ↔ o ∈ news ∨ (o ∈ observations ∧ o.key ∉ news.map Observation.key) := by
  induction news generalizing observations with
  | nil =>
    cases hOk
    simp
  | cons new rest ih =>
    obtain ⟨observations₁, hFirst, hRest⟩ := bind_ok.mp hOk
    have hMem := observeOne_ok hFirst (hSame new mem_cons_self)
    rw [map_cons, nodup_cons] at hKeys
    -- keys are distinct, so no later row is merged into the one just written
    have hApart : ∀ n ∈ rest, n.key ≠ new.key := fun n hn hEq =>
      hKeys.1 (mem_map.mpr ⟨n, hn, hEq⟩)
    rw [ih hRest hKeys.2, hMem, mem_cons, map_cons, mem_cons, not_or]
    · constructor
      · rintro (hRest | ⟨rfl | ⟨hOld, hNe⟩, hNot⟩)
        · exact .inl (.inr hRest)
        · exact .inl (.inl rfl)
        · exact .inr ⟨hOld, hNe, hNot⟩
      · rintro ((rfl | hRest) | ⟨hOld, hNe, hNot⟩)
        · exact .inr ⟨.inl rfl, hKeys.1⟩
        · exact .inl hRest
        · exact .inr ⟨.inr ⟨hOld, hNe⟩, hNot⟩
    · intro n hn o ho hKey
      rcases (hMem o).mp ho with rfl | ⟨hOld, -⟩
      · exact absurd hKey.symm (hApart n hn)
      · exact hSame n (mem_cons_of_mem _ hn) o hOld hKey

/-! ## Whole transactions -/

structure Applied (s : State) (ticket : OASyncTicket)
    (collection : OAPendingWorkSnapshotCollection) (wr : Writing) (s' : State) : Prop where
  user : wr.aiUserId = ticket.subject.aiUserId
  stream : ticket.stream = .pending
  row : ∃ row, s.sync wr.aiUserId .pending = some row ∧ row.issuedGeneration = ticket.generation ∧
    row.appliedGeneration < ticket.generation ∧
    row.lastAttemptStartedAt = some ticket.startedAt
  started : ticket.startedAt ≤ wr.fetchedAt
  latest : ∀ w ∈ s.worksOf wr.aiUserId, w.sourceFetchedAt ≤ wr.fetchedAt
  published : s.publish ticket wr collection = .ok s'

theorem apply_ok {outcome : Outcome}
    (hOk : s.apply ticket displayName collection fetchedAt draw = .ok (outcome, s')) :
    (outcome = .superseded ∧ s' = s) ∨ (outcome = .applied ∧
      Applied s ticket collection ⟨ticket.subject.aiUserId, displayName, fetchedAt, draw⟩ s') := by
  unfold State.apply at hOk
  simp only [bind_ok, ensure_ok, exists_const] at hOk
  obtain ⟨hStream, hStarted, status, hStatus, hOk⟩ := hOk
  obtain ⟨-, -, hStatus⟩ := bind_ok.mp hStatus
  cases hStatus
  split at hOk
  · cases hOk
    exact .inl ⟨rfl, rfl⟩
  · rename_i hFresh
    rw [not_or, not_not, Nat.not_le] at hFresh
    simp only [bind_ok, ensure_ok, exists_const] at hOk
    obtain ⟨hAttempt, -, -, hLatest, s₁, hPublish, hOk⟩ := hOk
    cases hOk
    refine .inr ⟨rfl, rfl, hStream, ?_, hStarted, hLatest, hPublish⟩
    unfold State.storedStatus at hFresh hAttempt
    cases hRow : s.sync ticket.subject.aiUserId .pending with
    | none =>
      rw [hRow] at hFresh
      exact absurd hFresh.1 (Nat.ne_of_gt ticket.positive)
    | some row =>
      rw [hRow] at hFresh hAttempt
      exact ⟨row, rfl, hFresh.1.symm, hFresh.2, hAttempt⟩

theorem publish_ok (hOk : s.publish ticket wr collection = .ok s') :
    s'.sync = (s.setSync wr.aiUserId .pending
      ((s.row wr.aiUserId .pending).published ticket.generation wr.fetchedAt)).sync ∧
    Rewritten wr s.works s'.works ∧ (∀ ref ∈ collection.refs, Refreshed wr ref s'.works) ∧
    ((s'.worksOf wr.aiUserId).map (observed collection.refs ticket.generation
      wr.fetchedAt)).foldlM observeOne s.observations = .ok s'.observations := by
  simp only [State.publish, bind_ok] at hOk
  obtain ⟨works, hWorks, observations, hObs, hOk⟩ := hOk
  cases hOk
  obtain ⟨hWrite, hRefs⟩ := upsertPending_ok hWorks
  refine ⟨rfl, hWrite, fun ref hRef => ?_, hObs⟩
  obtain ⟨sn, hsn, rfl⟩ := mem_map.mp hRef
  exact hRefs sn hsn

theorem finishFailure_cases (s : State) (ticket : OASyncTicket) (code : OASyncFailureCode)
    (finishedAt : Time) :
    s.finishFailure ticket code finishedAt = s ∨
    ∃ row, s.sync ticket.subject.aiUserId ticket.stream = some row ∧ row.awaits ticket ∧
      s.finishFailure ticket code finishedAt = s.setSync ticket.subject.aiUserId ticket.stream
        (row.failedWith (ticket.failure code finishedAt) finishedAt) := by
  unfold State.finishFailure
  split
  · exact .inl rfl
  · rename_i row hRow
    split
    · exact .inr ⟨row, hRow, ‹_›, rfl⟩
    · exact .inl rfl

theorem OASyncTicket.failure_times (code : OASyncFailureCode) (finishedAt : Time) :
    ticket.failure code finishedAt = .clockInvalid ∨ ticket.startedAt ≤ finishedAt := by
  unfold OASyncTicket.failure
  split
  · exact .inl rfl
  · exact .inr (not_lt.mp ‹_›)

/-- **What a step does to the row of a stream.** -/
theorem SyncStep.rowMove (hStep : SyncStep (s :: t) s') (user : Str) (stream : OASyncStream) :
    RowMove (s.sync user stream) (s'.sync user stream) := by
  cases hStep with
  | same => exact .kept
  | began subject stream' startedAt =>
    by_cases hThis : user = subject.aiUserId ∧ stream = stream'
    · obtain ⟨rfl, rfl⟩ := hThis
      rw [State.begin, setSync_self]
      exact .begun startedAt
    · rw [State.begin, setSync_of_ne hThis]
      exact .kept
  | @applied _ _ _ ticket displayName collection fetchedAt draw outcome hOk =>
    rcases apply_ok hOk with ⟨-, rfl⟩ | ⟨-, hApplied⟩
    · exact .kept
    · obtain ⟨hSync, -⟩ := publish_ok hApplied.published
      obtain ⟨row, hRow, hIssued, hNew, hAttempt⟩ := hApplied.row
      rw [hSync]
      by_cases hThis : user = ticket.subject.aiUserId ∧ stream = .pending
      · obtain ⟨rfl, rfl⟩ := hThis
        rw [setSync_self, State.row, hRow, ← hIssued]
        exact .published (hIssued ▸ hNew) hAttempt hApplied.started
      · rw [setSync_of_ne hThis]
        exact .kept
  | failed ticket code finishedAt =>
    rcases finishFailure_cases s ticket code finishedAt with hSame | ⟨row, hRow, hAwaits, hEq⟩
    · rw [hSame]
      exact .kept
    · rw [hEq]
      by_cases hThis : user = ticket.subject.aiUserId ∧ stream = ticket.stream
      · obtain ⟨rfl, rfl⟩ := hThis
        obtain ⟨hIssued, hNew, hAttempt⟩ := hAwaits
        rw [setSync_self, hRow]
        exact .failed (hIssued ▸ hNew) hAttempt (OASyncTicket.failure_times code finishedAt)
      · rw [setSync_of_ne hThis]
        exact .kept
  | upserted hOk =>
    obtain ⟨works, -, hOk⟩ := bind_ok.mp hOk
    cases hOk
    exact .kept

end EternalAI.Sync
