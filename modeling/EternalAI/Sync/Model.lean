import EternalAI.Dispatch.Model
import EternalAI.Lib.Except

/-!
# OA synchronisation — tickets, status rows and observations

The data of `app/ports/work_object.py` that a synchronisation with the OA works
on: the ticket of an attempt, the status of a stream, the observation of a
pending workflow, and the collections that the gateway delivers. All instants
are in UTC.

A ticket, a subject and a collection carry what their models have validated.
The two models that are rebuilt from stored columns do not: `OAObservation` and
`OASyncStatus` have the validator that is run on every read.

* `OAObservation.consistent`, `OASyncStatusView.consistent`,
  `OASyncStatus.consistent` — the validators, with their messages.
-/

namespace EternalAI.Sync

open Lib
open Dispatch (Str Time strip pythonWhitespace)

/-! ## Vocabulary -/

inductive OASyncStream where
  | pending | completed
  deriving DecidableEq, Repr

inductive OASyncFailureCode where
  | reauthenticationRequired | bindingScopeRequired | forbidden | invalidResponse
  | upstreamUnavailable | storageUnavailable | clockInvalid
  deriving DecidableEq, Repr

inductive AttemptStatus where
  | never | running | succeeded | failed
  deriving DecidableEq, Repr

inductive ViewStatus where
  | never | running | succeeded | failed | unsupportedScope
  deriving DecidableEq, Repr

inductive PendingState where
  | legacyUnverified | current | unconfirmed
  deriving DecidableEq, Repr

/-- A user of the default tenant, the only one whose attempts are recorded. -/
structure OASyncSubject where
  aiUserId : Str
  nonblank : strip pythonWhitespace aiUserId ≠ []
  deriving DecidableEq

structure OASyncTicket where
  subject : OASyncSubject
  stream : OASyncStream
  generation : Nat
  startedAt : Time
  positive : 0 < generation
  deriving DecidableEq

/-! ## Observations -/

structure OAObservation where
  pendingState : PendingState
  revision : Nat
  lastSeenAt : Time
  lastCheckedAt : Option Time
  deriving DecidableEq

def OAObservation.consistent (o : OAObservation) : Except String Unit :=
  if o.pendingState = .legacyUnverified then
    ensure (o.revision = 0 ∧ o.lastCheckedAt = none) "legacy observations have no reconciliation"
  else
    ensure (o.revision ≠ 0 ∧ (o.lastCheckedAt.any fun checked =>
      o.lastSeenAt ≤ checked ∧ (o.pendingState = .current → checked = o.lastSeenAt)) = true)
      "inconsistent reconciled observation"

/-! ## Status of a stream -/

structure OASyncStatusView where
  status : ViewStatus
  (revision attemptRevision : Nat)
  (lastAttemptAt lastSuccessAt : Option Time)
  failureCode : Option OASyncFailureCode
  deriving DecidableEq

def OASyncStatusView.consistent (v : OASyncStatusView) : Except String Unit := do
  ensure (v.revision ≤ v.attemptRevision) "attempt revision precedes publication"
  ensure (v.revision = 0 ↔ v.lastSuccessAt = none) "success time must match publication"
  if v.status = .never ∨ v.status = .unsupportedScope then
    ensure (v.attemptRevision = 0 ∧ v.lastAttemptAt = none ∧ v.failureCode = none)
      "unattempted sync must be empty"
  else do
    ensure (v.lastAttemptAt ≠ none ∧ v.attemptRevision ≠ 0) "attempt metadata required"
    if v.status = .succeeded then do
      ensure (v.revision = v.attemptRevision ∧ v.revision ≠ 0)
        "success must publish the issued generation"
      ensure ((v.lastSuccessAt.any fun success => v.lastAttemptAt.all (· ≤ success)) = true)
        "success precedes attempt"
    else
      ensure (v.revision < v.attemptRevision) "unfinished publication requires a newer attempt"
  ensure (v.status = .failed ↔ v.failureCode ≠ none) "only failed sync has a diagnostic code"

/-- The columns of `oa_work_sync_state` next to its key. -/
structure SyncRow where
  (issuedGeneration appliedGeneration : Nat)
  lastAttemptStatus : AttemptStatus
  (lastAttemptStartedAt lastAttemptFinishedAt lastSuccessAt : Option Time)
  lastErrorCode : Option OASyncFailureCode
  deriving DecidableEq

structure OASyncStatus extends SyncRow where
  subject : OASyncSubject
  stream : OASyncStream
  deriving DecidableEq

def AttemptStatus.view : AttemptStatus → ViewStatus
  | .never => .never
  | .running => .running
  | .succeeded => .succeeded
  | .failed => .failed

/-- `to_view`, before the view is validated. -/
def SyncRow.toView (row : SyncRow) : OASyncStatusView where
  status := row.lastAttemptStatus.view
  revision := row.appliedGeneration
  attemptRevision := row.issuedGeneration
  lastAttemptAt := row.lastAttemptStartedAt
  lastSuccessAt := row.lastSuccessAt
  failureCode := row.lastErrorCode

/-- What `_consistent` asks of the time an attempt has finished. -/
def SyncRow.finishConsistent (row : SyncRow) : Except String Unit :=
  if row.lastAttemptStatus = .never ∨ row.lastAttemptStatus = .running then
    ensure (row.lastAttemptFinishedAt = none) "unfinished attempt has a finish time"
  else match row.lastAttemptFinishedAt with
    | none => .error "terminal attempt requires a finish time"
    | some finished => do
      ensure (row.lastAttemptStatus = .succeeded → row.lastSuccessAt = some finished)
        "successful finish must match publication time"
      ensure (row.lastErrorCode = some .clockInvalid ∨
          (row.lastAttemptStartedAt.all (· ≤ finished)) = true)
        "finish precedes start without clock diagnostic"

def OASyncStatus.consistent (status : OASyncStatus) : Except String Unit := do
  status.toSyncRow.toView.consistent
  status.toSyncRow.finishConsistent

/-! ## Collections -/

structure SourceText where
  val : Str
  nonblank : strip pythonWhitespace val ≠ []
  plain : '<' ∉ val ∧ '>' ∉ val
  deriving DecidableEq

structure OAPendingWorkSnapshot where
  (sourceRef title status receivedAt createdAt workflowTypeId : SourceText)
  deriving DecidableEq

structure OAPendingWorkSnapshotCollection where
  workflows : List OAPendingWorkSnapshot
  (returnedCount authoritativeCount : Nat)
  counts : returnedCount = workflows.length ∧ authoritativeCount = workflows.length
  unique : (workflows.map (·.sourceRef)).Nodup

def OAPendingWorkSnapshotCollection.refs (collection : OAPendingWorkSnapshotCollection) :
    List SourceText :=
  collection.workflows.map (·.sourceRef)

end EternalAI.Sync
