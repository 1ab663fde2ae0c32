import EternalAI.Sync.Model
import EternalAI.Lib.Upsert

/-!
# OA synchronisation — the store

The three transactions of `app/infra/persistence/work_object/postgresql.py`
that record an attempt, and the write without a ticket that other tenants use.
The store holds the row of each stream, the OA rows of `work_objects` and the
table of observations.

`apply` locks the row of its stream before anything else, and every transaction
that writes this row waits for the lock; each of them is one step here.

* `State.begin`, `State.apply`, `State.finishFailure`, `State.upsert`.
* `State.syncStatus`, `State.observationOf` — what is read back.
-/

namespace EternalAI.Sync

open Lib
open Dispatch (Str Time)

/-! ## Tables -/

/-- A row of `work_objects` whose state is a snapshot of the OA. -/
structure Work where
  (workObjectId assigneeAiUserId assigneeDisplayName : Str)
  source : OAPendingWorkSnapshot
  (sourceFetchedAt createdAt updatedAt : Time)
  deriving DecidableEq

/-- `(assignee_ai_user_id, source_system, source_ref)`, unique among the OA
rows. -/
def Work.key (w : Work) : Str × SourceText := (w.assigneeAiUserId, w.source.sourceRef)

/-- A row of `oa_work_pending_observations`. -/
structure Observation where
  aiUserId : Str
  sourceRef : SourceText
  workObjectId : Str
  pendingState : PendingState
  revision : Nat
  (lastSeenAt lastCheckedAt : Time)
  deriving DecidableEq

def Observation.key (o : Observation) : Str × SourceText := (o.aiUserId, o.sourceRef)

structure State where
  sync : Str → OASyncStream → Option SyncRow
  works : List Work
  observations : List Observation

inductive StoreError where
  | clockInvalid
  | value (message : String)
  | validation (message : String)
  | outcomeUnknown
  | storage
  deriving DecidableEq

def State.setSync (s : State) (user : Str) (stream : OASyncStream) (row : SyncRow) : State :=
  { s with sync := fun u st => if u = user ∧ st = stream then some row else s.sync u st }

/-! ## Reading back -/

def SyncRow.never : SyncRow := ⟨0, 0, .never, none, none, none, none⟩

section

variable (s : State)

def State.storedStatus (subject : OASyncSubject) (stream : OASyncStream) : OASyncStatus :=
  ⟨(s.sync subject.aiUserId stream).getD SyncRow.never, subject, stream⟩

/-- `_sync_status`: the stored status, if its model accepts it. -/
def State.syncStatus (subject : OASyncSubject) (stream : OASyncStream) :
    Except StoreError OASyncStatus := do
  (s.storedStatus subject stream).consistent.mapError .validation
  pure (s.storedStatus subject stream)

def Observation.view (o : Observation) : OAObservation :=
  ⟨o.pendingState, o.revision, o.lastSeenAt, some o.lastCheckedAt⟩

/-- The observation in a record of the default tenant, joined to its row as in
`_observed_source` and completed as in `_record_from_row`. -/
def State.observationOf (w : Work) : OAObservation :=
  match s.observations.find? fun o =>
    o.aiUserId = w.assigneeAiUserId ∧ o.workObjectId = w.workObjectId ∧
      o.sourceRef = w.source.sourceRef with
  | some o => o.view
  | none => ⟨.legacyUnverified, 0, w.sourceFetchedAt, none⟩

/-! ## An attempt begins -/

/-- The row of a stream after `begin_oa_sync`. -/
def SyncRow.begun (startedAt : Time) : Option SyncRow → SyncRow
  | none => ⟨1, 0, .running, some startedAt, none, none, none⟩
  | some row => { row with
      issuedGeneration := row.issuedGeneration + 1
      lastAttemptStatus := .running
      lastAttemptStartedAt := some startedAt
      lastAttemptFinishedAt := none
      lastErrorCode := none }

theorem SyncRow.begun_positive (startedAt : Time) (row : Option SyncRow) :
    0 < (SyncRow.begun startedAt row).issuedGeneration := by
  cases row with
  | none => exact Nat.one_pos
  | some row => exact Nat.succ_pos _

/-- `begin_oa_sync`. -/
def State.begin (subject : OASyncSubject) (stream : OASyncStream) (startedAt : Time) (s : State) :
    OASyncTicket × State :=
  let row := SyncRow.begun startedAt (s.sync subject.aiUserId stream)
  (⟨subject, stream, row.issuedGeneration, startedAt,
      SyncRow.begun_positive startedAt (s.sync subject.aiUserId stream)⟩,
    s.setSync subject.aiUserId stream row)

/-! ## Snapshots are written -/

/-- The values that every snapshot of one write gets, and the id drawn for each
row that is new; `none` is an insert the database refuses. -/
structure Writing where
  (aiUserId displayName : Str)
  fetchedAt : Time
  draw : SourceText → Option Str

variable (wr : Writing)

def Writing.inserted (workObjectId : Str) (snapshot : OAPendingWorkSnapshot) : Work :=
  ⟨workObjectId, wr.aiUserId, wr.displayName, snapshot, wr.fetchedAt, wr.fetchedAt, wr.fetchedAt⟩

def Writing.updated (snapshot : OAPendingWorkSnapshot) (w : Work) : Work :=
  { w with
    assigneeDisplayName := wr.displayName
    source := { snapshot with sourceRef := w.source.sourceRef }
    sourceFetchedAt := wr.fetchedAt
    updatedAt := wr.fetchedAt }

/-- One statement of `_upsert_pending`. An id that is taken violates the
primary key, unless the row is there already. -/
def Writing.upsertOne (works : List Work) (snapshot : OAPendingWorkSnapshot) :
    Except StoreError (List Work) :=
  match wr.draw snapshot.sourceRef with
  | none => .error .storage
  | some workObjectId => do
    let row := wr.inserted workObjectId snapshot
    ensure (row.key ∈ works.map Work.key ∨ workObjectId ∉ works.map Work.workObjectId) .storage
    pure (upsert Work.key (wr.updated snapshot) row works)

def Writing.upsertPending (snapshots : List OAPendingWorkSnapshot) (works : List Work) :
    Except StoreError (List Work) :=
  snapshots.foldlM wr.upsertOne works

/-- `upsert_oa_pending_workflows`. -/
def State.upsert (snapshots : List OAPendingWorkSnapshot) (s : State) :
    Except StoreError (Unit × State) := do
  let works ← wr.upsertPending snapshots s.works
  pure ((), { s with works := works })

end

/-! ## A snapshot is applied -/

/-- What the statement on the observations selects for an OA row. -/
def observed (refs : List SourceText) (generation : Nat) (fetchedAt : Time) (w : Work) :
    Observation where
  aiUserId := w.assigneeAiUserId
  sourceRef := w.source.sourceRef
  workObjectId := w.workObjectId
  pendingState := if w.source.sourceRef ∈ refs then .current else .unconfirmed
  revision := generation
  lastSeenAt := w.sourceFetchedAt
  lastCheckedAt := fetchedAt

/-- The update on conflict, which leaves the observation of another row alone. -/
def Observation.merged (new old : Observation) : Observation :=
  if old.workObjectId = new.workObjectId then { old with
    pendingState := new.pendingState
    revision := new.revision
    lastSeenAt := new.lastSeenAt
    lastCheckedAt := new.lastCheckedAt } else old

/-- The statement on the observations, for one selected row. A second
observation of one work object violates its unique constraint. -/
def observeOne (observations : List Observation) (new : Observation) :
    Except StoreError (List Observation) := do
  ensure (new.key ∈ observations.map Observation.key ∨
    new.workObjectId ∉ observations.map Observation.workObjectId) .storage
  pure (Lib.upsert Observation.key new.merged new observations)

/-- The OA rows of a user, `_PENDING_OWNER`. -/
def State.worksOf (s : State) (user : Str) : List Work :=
  s.works.filter (·.assigneeAiUserId = user)

/-- An observation of the user whose work object is not the user's OA row of
that reference. Its work object exists, by the foreign key. -/
def State.mismatched (s : State) (user : Str) : Bool :=
  s.observations.any fun o => o.aiUserId = user ∧
    ¬ ∃ w ∈ s.works, w.workObjectId = o.workObjectId ∧ w.assigneeAiUserId = o.aiUserId ∧
      w.source.sourceRef = o.sourceRef

inductive Outcome where
  | applied | superseded
  deriving DecidableEq, Repr

def SyncRow.published (row : SyncRow) (generation : Nat) (fetchedAt : Time) : SyncRow :=
  { row with
    appliedGeneration := generation
    lastAttemptStatus := .succeeded
    lastSuccessAt := some fetchedAt
    lastAttemptFinishedAt := some fetchedAt
    lastErrorCode := none }

/-- The writes of `apply_oa_pending_snapshot`. -/
def State.publish (s : State) (ticket : OASyncTicket) (wr : Writing)
    (collection : OAPendingWorkSnapshotCollection) : Except StoreError State := do
  let works ← wr.upsertPending collection.workflows s.works
  let written := { s with works := works }
  let observations ← ((written.worksOf wr.aiUserId).map
    (observed collection.refs ticket.generation wr.fetchedAt)).foldlM observeOne s.observations
  -- the row of the stream is there: the ticket has its issued generation
  let row := (s.sync wr.aiUserId .pending).getD SyncRow.never
  pure ({ written with observations := observations }.setSync wr.aiUserId .pending
    (row.published ticket.generation wr.fetchedAt))

section

variable (row : SyncRow) (ticket : OASyncTicket) (code : OASyncFailureCode) (finishedAt : Time)

/-- `apply_oa_pending_snapshot`. -/
def State.apply (displayName : Str) (collection : OAPendingWorkSnapshotCollection)
    (fetchedAt : Time) (draw : SourceText → Option Str) (s : State) :
    Except StoreError (Outcome × State) := do
  ensure (ticket.stream = .pending) (.value "pending reconciliation requires a pending ticket")
  ensure (ticket.startedAt ≤ fetchedAt) .clockInvalid
  let status ← s.syncStatus ticket.subject .pending
  if ticket.generation ≠ status.issuedGeneration ∨ ticket.generation ≤ status.appliedGeneration then
    pure (.superseded, s)
  else do
    ensure (status.lastAttemptStartedAt = some ticket.startedAt)
      (.value "ticket does not match issued attempt")
    ensure (∀ success ∈ status.lastSuccessAt, success ≤ fetchedAt) .clockInvalid
    ensure (s.mismatched ticket.subject.aiUserId = false)
      (.value "OA observation ownership mismatch")
    ensure (∀ w ∈ s.worksOf ticket.subject.aiUserId, w.sourceFetchedAt ≤ fetchedAt) .clockInvalid
    let s' ← s.publish ticket ⟨ticket.subject.aiUserId, displayName, fetchedAt, draw⟩ collection
    pure (.applied, s')

/-! ## An attempt fails -/

def SyncRow.failedWith : SyncRow :=
  { row with
    lastAttemptStatus := .failed
    lastAttemptFinishedAt := some finishedAt
    lastErrorCode := some code }

/-- The condition of the update in `finish_oa_sync_failure`. -/
def SyncRow.awaits : Prop :=
  row.issuedGeneration = ticket.generation ∧ row.appliedGeneration < ticket.generation ∧
    row.lastAttemptStartedAt = some ticket.startedAt

instance : Decidable (row.awaits ticket) :=
  inferInstanceAs (Decidable (_ ∧ _))

/-- The code that is recorded: a clock that runs backwards is its own failure. -/
def OASyncTicket.failure : OASyncFailureCode :=
  if finishedAt < ticket.startedAt then .clockInvalid else code

/-- `finish_oa_sync_failure`. -/
def State.finishFailure (s : State) : State :=
  match s.sync ticket.subject.aiUserId ticket.stream with
  | none => s
  | some row =>
    if row.awaits ticket then
      s.setSync ticket.subject.aiUserId ticket.stream
        (row.failedWith (ticket.failure code finishedAt) finishedAt)
    else s

end

end EternalAI.Sync
