import EternalAI.Recurrence.Calendar

/-!
# Recurring series — the transactions

`app/infra/persistence/work_object/recurrence.py`. Every operation is one
transaction that locks the row of the series it works on; a worker locks one
due series that nobody else holds. A transaction that raises leaves nothing
behind.

* `State.create`, `State.change` — the owner's operations.
* `State.generateOne` — one round of `generate_due`: the occurrence, its tasks
  and the progress of the series are committed together.
-/

namespace EternalAI.Recurrence

open Lib Dispatch

/-- A violated constraint, or a lost connection. -/
def storeUnavailable : Failure := .dispatch .workObjectStoreUnavailable

/-! ## Reading a series -/

/-- An upload of the owner that a template may refer to. -/
def isSource (tenantId ownerAiUserId : Str) (id : Uuid) (a : Attachment) : Bool :=
  a.tenantId == tenantId && a.ownerAiUserId == ownerAiUserId && a.attachmentId == id &&
    a.workObjectId.isNone && a.detachedAt.isNone && a.purpose == .taskMaterial

def findSources (tenantId ownerAiUserId : Str) (files : List Attachment) :
    List Uuid → Except Failure (List Attachment)
  | [] => .ok []
  | id :: ids =>
    match files.find? (isSource tenantId ownerAiUserId id),
      findSources tenantId ownerAiUserId files ids with
    | some a, .ok rest => .ok (a :: rest)
    | some _, .error e => .error e
    | none, _ => .error (.dispatch .workObjectAttachmentInvalid)

/-- `template_attachments_in_session`. -/
def templateAttachments (tenantId ownerAiUserId : Str) (ids : List Uuid)
    (files : List Attachment) : Except Failure (List Attachment) := do
  ensure (ids.length ≤ maxAttachmentsPerRequest) (.dispatch .workObjectAttachmentLimitExceeded)
  let found ← findSources tenantId ownerAiUserId files ids
  ensure ((found.map (·.sizeBytes)).sum ≤ maxTaskAttachmentBytes)
    (.dispatch .workObjectAttachmentLimitExceeded)
  pure found

section

variable (cal : Calendar) (s : State) (subject : Subject) (id : Uuid)

def State.owned : Except Failure SeriesRow :=
  match s.series id with
  | some row =>
    if row.tenantId = subject.tenantId ∧ row.creatorAiUserId = subject.aiUserId then .ok row
    else .error .workObjectSeriesNotFound
  | none => .error .workObjectSeriesNotFound

/-- A stored rule is validated when it is read: its zone has to be known. -/
def Calendar.validate (view : SeriesView) : Except Failure SeriesView :=
  if (cal view.request.timezone).isSome then .ok view else .error .defect

def State.view (row : SeriesRow) : Except Failure SeriesView := do
  let attachments ← templateAttachments row.tenantId row.creatorAiUserId
    row.request.template.attachmentIds s.tasks.files
  cal.validate {
    request := row.request
    seriesId := row.seriesId
    version := row.currentVersion
    nextDueAt := row.nextDueAt
    createdAt := row.createdAt
    updatedAt := row.updatedAt
    attachments := attachments }

def State.get : Except Failure SeriesView := do
  let row ← s.owned subject id
  s.view cal row

/-! ## The history of versions -/

/-- The constraints of the version table. -/
def VersionRow.collides (v other : VersionRow) : Bool :=
  v.tenantId == other.tenantId && v.seriesId == other.seriesId &&
    (v.version == other.version ||
      (v.actorAiUserId == other.actorAiUserId && v.idempotencyKey == other.idempotencyKey))

def State.recordVersion (v : VersionRow) : Except Failure State := do
  ensure (¬ s.versions.any v.collides) storeUnavailable
  pure { s with versions := s.versions ++ [v] }

def State.versionOf (key : Uuid) : Option VersionRow :=
  s.versions.find? fun v => v.tenantId == subject.tenantId && v.seriesId == id &&
    v.actorAiUserId == subject.aiUserId && v.idempotencyKey == key

def State.replay (operation : Operation) (key : Uuid) (fingerprint : String) :
    Except Failure (Option SeriesMutationResult) :=
  match s.versionOf subject id key with
  | none => .ok none
  | some v =>
    if v.operation = operation ∧ v.requestFingerprint = fingerprint then do
      let series ← cal.validate v.snapshot
      pure (some { series := series, replayed := true })
    else .error (.dispatch .idempotencyKeyReused)

/-! ## The owner's operations -/

def firstDue (request : SeriesRequest) (now : Time) : Except Failure (Option Time) :=
  if request.enabled then do
    let due ← nextScheduled cal request ⟨now, true, false⟩
    pure (some due)
  else .ok none

/-- The identity of the directory, without which nothing is dispatched. -/
def directoryIdentity : Except Failure Str :=
  match subject.directoryUserId with
  | some (c :: cs) => .ok (c :: cs)
  | _ => .error (.dispatch .directoryMembershipMissing)

end

section

variable (env : SeriesEnv) (cal : Calendar) (s : State) (now : Time)

def newRow (subject : Subject) (directory : Str) (request : SeriesRequest) (key : Uuid)
    (due : Option Time) (now : Time) : SeriesRow where
  seriesId := env.seriesId subject.tenantId subject.aiUserId key
  tenantId := subject.tenantId
  creatorAiUserId := subject.aiUserId
  creatorDirectoryUserId := directory
  request := request
  currentVersion := 1
  nextDueAt := due
  createdAt := now
  updatedAt := now
  identified := subject.identified

/-- The answer to a creation whose series is there already. -/
def State.answerCreate (subject : Subject) (request : SeriesRequest) (key : Uuid) :
    Except Failure SeriesMutationResult := do
  let id := env.seriesId subject.tenantId subject.aiUserId key
  let _ ← s.owned subject id
  match ← s.replay cal subject id .create key (env.createFingerprint request) with
  | some result => pure result
  | none => .error (.dispatch .idempotencyKeyReused)

def State.commit (subject : Subject) (row : SeriesRow) (operation : Operation) (key : Uuid)
    (fingerprint : String) (now : Time) : Except Failure (SeriesMutationResult × State) := do
  let view ← s.view cal row
  let s' ← (s.put row).recordVersion {
    tenantId := subject.tenantId
    seriesId := row.seriesId
    version := row.currentVersion
    operation := operation
    actorAiUserId := subject.aiUserId
    occurredAt := now
    snapshot := view
    idempotencyKey := key
    requestFingerprint := fingerprint }
  pure ({ series := view, replayed := false }, s')

/-- `create`. A conflict on tenant and series leaves the stored row alone; the
series id alone is the primary key. -/
def State.create (env : SeriesEnv) (cal : Calendar) (subject : Subject) (request : SeriesRequest)
    (key : Uuid) (now : Time) (s : State) : Except Failure (SeriesMutationResult × State) := do
  let directory ← directoryIdentity subject
  let _ ← templateAttachments subject.tenantId subject.aiUserId request.template.attachmentIds
    s.tasks.files
  let due ← firstDue cal request now
  let row := newRow env subject directory request key due now
  match s.series row.seriesId with
  | some old => do
    ensure (old.tenantId = subject.tenantId) storeUnavailable
    let result ← s.answerCreate env cal subject request key
    pure (result, s)
  | none => s.commit cal subject row .create key (env.createFingerprint request) now

/-- The next due instant after a change: a series that is switched on again
while it is on keeps its own. -/
def Change.nextDue (change : Change) (old : SeriesView) (now : Time) :
    Except Failure (Option Time) :=
  if change.operation = .enable ∧ old.request.enabled then .ok old.nextDueAt
  else if (change.rule old.request).enabled then do
    let due ← nextScheduled cal (change.rule old.request) ⟨now, false, false⟩
    pure (some due)
  else .ok none

def SeriesRow.changed (row : SeriesRow) (change : Change) (due : Option Time) (now : Time) :
    SeriesRow :=
  { row with
    request := change.rule row.request
    currentVersion := row.currentVersion + 1
    nextDueAt := due
    updatedAt := now }

/-- The check of `If-Match`. -/
def checkMatch (ifMatch etag : String) : Except Failure Unit := do
  ensure (ifMatch ≠ "") (.dispatch .preconditionRequired)
  ensure (ifMatch = etag) (.dispatch .versionConflict)

def State.change (env : SeriesEnv) (cal : Calendar) (subject : Subject) (id : Uuid)
    (change : Change) (ifMatch : String) (key : Uuid) (now : Time) (s : State) :
    Except Failure (SeriesMutationResult × State) := do
  let row ← s.owned subject id
  let old ← s.view cal row
  let fingerprint := env.changeFingerprint id change
  match ← s.replay cal subject id change.operation key fingerprint with
  | some result => pure (result, s)
  | none => do
    checkMatch ifMatch (old.etag env)
    let _ ← templateAttachments subject.tenantId subject.aiUserId
      (change.rule old.request).template.attachmentIds s.tasks.files
    let due ← change.nextDue cal old now
    s.commit cal subject (row.changed change due now) change.operation key fingerprint now

/-! ## Generation -/

/-- What one round of a worker gets from outside: the series it finds first
among those that nobody has locked, the directory, ids and clock readings, and
what becomes of its commit. -/
structure Round where
  (pick occurrenceId : Uuid)
  preparation : Except Failure Preparation
  draws : Draws
  ack : Ack

def State.dueRow (failed : List Uuid) (pick : Uuid) : Option (SeriesRow × Time) :=
  match s.series pick with
  | none => none
  | some row =>
    match row.nextDueAt with
    | none => none
    | some due => if row.request.enabled ∧ due ≤ now ∧ pick ∉ failed then some (row, due) else none

def State.occurrenceAt (tenantId : Str) (id : Uuid) (scheduled : Time) : Option Occurrence :=
  s.occurrences.find? fun o => o.tenantId == tenantId && o.seriesId == id &&
    o.scheduledAt == scheduled

/-- `prepare_dispatch` for one occurrence. -/
def prepareOccurrence (row : SeriesRow) (scheduled : Time) (round : Round) :
    Except Failure PreparedDispatch := do
  let request ← occurrenceRequest cal row.request scheduled
  let preparation ← round.preparation
  ofDispatch (prepareDispatch env.dispatch row.subject request
    (env.occurrenceKey row.seriesId scheduled) preparation)

/-- The tasks of an occurrence are linked to it, each task to one only. -/
def linkItems (tenantId : Str) (occurrenceId : Uuid) :
    List Str → List OccurrenceItem → Except Failure (List OccurrenceItem)
  | [], items => .ok items
  | task :: tasks, items =>
    if items.any fun i => i.tenantId == tenantId && i.workObjectId == task then
      .error storeUnavailable
    else linkItems tenantId occurrenceId tasks (items ++ [⟨tenantId, occurrenceId, task⟩])

def State.insertTasks (tenantId : Str) (round : Round) (prepared : PreparedDispatch) :
    Except Failure (World × List OccurrenceItem) := do
  let (result, tasks) ← ofDispatch ((s.tasks.insertPrepared env.dispatch prepared round.draws).run
    checkRow .workObjectStoreUnavailable)
  let items ← linkItems tenantId round.occurrenceId (result.items.map (·.1.workObjectId)) s.items
  pure (tasks, items)

/-- What became of an occurrence, with the tasks and links after it. A failure
whose code blocks the occurrence undoes the insertion only. -/
def blockedOr (attempt : Except Failure (World × List OccurrenceItem)) :
    Except Failure (OccurrenceState × World × List OccurrenceItem) :=
  match attempt with
  | .ok inserted => .ok (.generated now, inserted)
  | .error e => if e.blocks then .ok (.blocked e, s.tasks, s.items) else .error e

def State.recordOccurrence (row : SeriesRow) (scheduled now : Time) (round : Round) :
    Except Failure (OccurrenceState × State) := do
  ensure (¬ s.occurrences.any (·.occurrenceId == round.occurrenceId)) storeUnavailable
  ensure (s.versions.any fun v => v.tenantId == row.tenantId && v.seriesId == row.seriesId &&
    v.version == row.currentVersion) storeUnavailable
  let (state, tasks, items) ← blockedOr s now do
    let prepared ← prepareOccurrence env cal row scheduled round
    s.insertTasks env row.tenantId round prepared
  pure (state, { s with
    tasks := tasks
    items := items
    occurrences := s.occurrences ++ [{
      occurrenceId := round.occurrenceId
      tenantId := row.tenantId
      seriesId := row.seriesId
      scheduledAt := scheduled
      seriesVersion := row.currentVersion
      state := state }] })

/-- The occurrence is recorded unless it is there already. -/
def State.settle (row : SeriesRow) (scheduled now : Time) (round : Round) :
    Except Failure (Option OccurrenceState × State) :=
  match s.occurrenceAt row.tenantId row.seriesId scheduled with
  | some _ => .ok (none, s)
  | none => do
    let (state, s') ← s.recordOccurrence env cal row scheduled now round
    pure (some state, s')

def SeriesRow.advanced (row : SeriesRow) (due : Time) : SeriesRow :=
  { row with nextDueAt := some due }

/-- One round of `generate_due`. There is no result where no series is due;
otherwise it tells what was recorded. -/
def State.generateOne (failed : List Uuid) (round : Round) (s : State) :
    Except Failure (Option (Option OccurrenceState) × State) :=
  match s.dueRow now failed round.pick with
  | none => .ok (none, s)
  | some (row, scheduled) => do
    let _ ← s.view cal row
    let (recorded, s') ← s.settle env cal row scheduled now round
    -- The next instant is looked for apart: a gap in the future is no failure of this occurrence.
    let due ← nextScheduled cal row.request ⟨scheduled, false, true⟩
    pure (some recorded, s'.put (row.advanced due))

end

end EternalAI.Recurrence
