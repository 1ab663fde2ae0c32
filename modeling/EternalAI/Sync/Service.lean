import EternalAI.Sync.Store
import EternalAI.Lib.Commit

/-!
# OA synchronisation — the service and its runs

`_sync_snapshots_for_principal` of `app/api/v1/work_objects.py`: begin an
attempt, ask the gateway, then apply the snapshot or record the failure. Any
number of these run at once, for one user or for many, and each may stop at any
point; a commit may also go through without its acknowledgement.

* `syncSnapshots` — the procedure.
* `SyncRun` — the interleavings of these procedures and of single operations of
  the store with any ticket at any time.
-/

namespace EternalAI.Sync

open Lib
open Dispatch (Str Time strip pythonWhitespace)

/-! ## Failures -/

/-- `CredentialCountedFailureCode`, as far as a synchronisation uses it. -/
inductive CountedFailure where
  | timeout | upstream5xx | invalidResponse
  deriving DecidableEq, Repr

/-- What a synchronisation may raise: an error of the store on its way to a
handler, the answer to a request, or the classified failure of a background
run. -/
inductive Failure where
  | store (error : StoreError)
  | http (status : Nat) (code message : String) (nextAction : Option String)
  | background (authenticationDenied : Bool) (failureCode : Option CountedFailure)
  deriving DecidableEq

inductive LocalCode where
  | oaSyncSuperseded | oaSyncOutcomeUnknown | workObjectSyncFailed
  deriving DecidableEq, Repr

/-- `_raise_local_sync_error`. -/
def localSyncError (code : LocalCode) (background : Bool) : Failure :=
  if background then .background false none else match code with
    | .oaSyncSuperseded => .http 409 "oa_sync_superseded"
        "A newer OA synchronization has started; refresh the stored result." none
    | .oaSyncOutcomeUnknown => .http 503 "oa_sync_outcome_unknown"
        "OA synchronization outcome is not confirmed; refresh the stored result." none
    | .workObjectSyncFailed => .http 503 "work_object_sync_failed"
        "Work Object synchronization failed; stored data is unchanged." none

inductive GatewayError where
  | identityUnbound | identityExpired | identityRevoked | needsBindingScope
  | policyDenied | upstreamPermissionDenied
  | adapterPayloadInvalid | adapterMissingRequiredField | adapterEmptyResponse
  | adapterTimeout | adapterHttp500 | other
  deriving DecidableEq, Repr

def syncDiagnostic : GatewayError → OASyncFailureCode
  | .identityUnbound | .identityExpired | .identityRevoked => .reauthenticationRequired
  | .needsBindingScope => .bindingScopeRequired
  | .policyDenied | .upstreamPermissionDenied => .forbidden
  | .adapterPayloadInvalid | .adapterMissingRequiredField | .adapterEmptyResponse =>
    .invalidResponse
  | _ => .upstreamUnavailable

/-- `_raise_sync_failure`. -/
def syncFailure : GatewayError → Failure
  | .identityUnbound | .identityExpired | .identityRevoked =>
    .http 409 "oa_reauthentication_required"
      "OA authentication is no longer usable; authenticate again." (some "reauthenticate")
  | .needsBindingScope =>
    .http 409 "oa_binding_scope_required"
      "OA binding scope must be clarified before synchronization." (some "clarify_binding_scope")
  | .policyDenied | .upstreamPermissionDenied =>
    .http 403 "work_object_sync_forbidden" "Work Object synchronization is not permitted." none
  | _ => .http 503 "work_object_sync_failed"
      "Work Object synchronization failed; stored data is unchanged." none

/-- `_raise_background_sync_failure`. -/
def backgroundSyncFailure : GatewayError → Failure
  | .identityUnbound | .identityExpired | .identityRevoked => .background true none
  | .adapterTimeout => .background false (some .timeout)
  | .adapterHttp500 => .background false (some .upstream5xx)
  | .adapterPayloadInvalid | .adapterMissingRequiredField | .adapterEmptyResponse =>
    .background false (some .invalidResponse)
  | _ => .background false none

def invalidPayload (background : Bool) : Failure :=
  if background then .background false (some .invalidResponse)
  else .http 502 "work_object_sync_invalid"
    "OA returned an invalid Work Object synchronization payload." none

/-! ## What is decided elsewhere -/

structure Principal where
  (aiUserId displayName : Str)
  defaultTenant : Bool

inductive Answer where
  | raised
  | failed (error : GatewayError)
  | invalid
  | complete (collection : OAPendingWorkSnapshotCollection)

/-- A synchronisation with everything that is decided elsewhere: the gateway's
answer, the three readings of the clock, the fate of the transactions and the
ids that are drawn. -/
structure Synchronisation where
  principal : Principal
  background : Bool
  answer : Answer
  (startedAt fetchedAt finishedAt : Time)
  (beginAck applyAck failureAck : Ack)
  draw : SourceText → Option Str

/-- `OASyncSubject(tenant_id="default", ai_user_id=…)`. -/
def OASyncSubject.ofUser (aiUserId : Str) : Option OASyncSubject :=
  if h : strip pythonWhitespace aiUserId ≠ [] then some ⟨aiUserId, h⟩ else none

/-! ## The procedure -/

def beginOaSync (ack : Ack) (subject : OASyncSubject) (stream : OASyncStream) (startedAt : Time) :
    Prog State Failure OASyncTicket :=
  transact ack (.store .outcomeUnknown) (.store .storage) (fun _ => true) fun s =>
    .ok (s.begin subject stream startedAt)

def applyOaPendingSnapshot (ack : Ack) (ticket : OASyncTicket) (displayName : Str)
    (collection : OAPendingWorkSnapshotCollection) (fetchedAt : Time)
    (draw : SourceText → Option Str) : Prog State Failure Outcome :=
  transact ack (.store .outcomeUnknown) (.store .storage) (· = .applied) fun s =>
    (s.apply ticket displayName collection fetchedAt draw).mapError .store

def finishOaSyncFailure (ack : Ack) (ticket : OASyncTicket) (code : OASyncFailureCode)
    (finishedAt : Time) : Prog State Failure Unit :=
  transact ack (.store .storage) (.store .storage) (fun _ => true) fun s =>
    .ok ((), s.finishFailure ticket code finishedAt)

def upsertOaPendingWorkflows (ack : Ack) (wr : Writing) (snapshots : List OAPendingWorkSnapshot) :
    Prog State Failure Unit :=
  transact ack (.store .storage) (.store .storage) (fun _ => true) fun s =>
    (s.upsert wr snapshots).mapError .store

section

variable (sync : Synchronisation)

/-- The ticket of the attempt; there is none outside the default tenant. -/
def takeTicket : Prog State Failure (Option OASyncTicket) :=
  if sync.principal.defaultTenant then
    match OASyncSubject.ofUser sync.principal.aiUserId with
    | none => .raise (localSyncError .workObjectSyncFailed sync.background)
    | some subject => do
      let begun ← (beginOaSync sync.beginAck subject .pending sync.startedAt).attempt
      match begun with
      | .ok ticket => pure (some ticket)
      | .error (.store .outcomeUnknown) =>
        .raise (localSyncError .oaSyncOutcomeUnknown sync.background)
      | .error _ => .raise (localSyncError .workObjectSyncFailed sync.background)
  else pure none

def recordSyncFailure (ticket : Option OASyncTicket) (code : OASyncFailureCode) :
    Prog State Failure Unit :=
  match ticket with
  | none => pure ()
  | some ticket => do
    let recorded ← (finishOaSyncFailure sync.failureAck ticket code sync.finishedAt).attempt
    match recorded with
    | .ok () => pure ()
    | .error _ =>
      Prog.require (sync.background = true) (localSyncError .workObjectSyncFailed false)

/-- The part of the procedure that writes the snapshot. -/
def writeSnapshot (ticket : Option OASyncTicket) (collection : OAPendingWorkSnapshotCollection) :
    Prog State Failure Outcome :=
  match ticket with
  | none => do
    upsertOaPendingWorkflows sync.applyAck
      ⟨sync.principal.aiUserId, sync.principal.displayName, sync.fetchedAt, sync.draw⟩
      collection.workflows
    pure .applied
  | some ticket =>
    applyOaPendingSnapshot sync.applyAck ticket sync.principal.displayName collection
      sync.fetchedAt sync.draw

/-- `_sync_snapshots_for_principal`. -/
def syncSnapshots : Prog State Failure Unit := do
  let ticket ← takeTicket sync
  match sync.answer with
  | .raised =>
    recordSyncFailure sync ticket .upstreamUnavailable
    .raise (localSyncError .workObjectSyncFailed sync.background)
  | .failed error =>
    recordSyncFailure sync ticket (syncDiagnostic error)
    .raise (if sync.background then backgroundSyncFailure error else syncFailure error)
  | .invalid =>
    recordSyncFailure sync ticket .invalidResponse
    .raise (invalidPayload sync.background)
  | .complete collection =>
    let written ← (writeSnapshot sync ticket collection).attempt
    match written with
    | .ok .applied => pure ()
    | .ok .superseded => .raise (localSyncError .oaSyncSuperseded sync.background)
    | .error (.store .outcomeUnknown) =>
      .raise (localSyncError .oaSyncOutcomeUnknown sync.background)
    | .error (.store .clockInvalid) =>
      recordSyncFailure sync ticket .clockInvalid
      .raise (localSyncError .workObjectSyncFailed sync.background)
    | .error _ =>
      recordSyncFailure sync ticket .storageUnavailable
      .raise (localSyncError .workObjectSyncFailed sync.background)

end

/-! ## Runs -/

/-- Something that is asked: a whole synchronisation, or one operation of the
store, with whatever ticket the caller has. -/
inductive SyncCall where
  | synchronises (sync : Synchronisation)
  | begins (ack : Ack) (subject : OASyncSubject) (stream : OASyncStream) (startedAt : Time)
  | applies (ack : Ack) (ticket : OASyncTicket) (displayName : Str)
      (collection : OAPendingWorkSnapshotCollection) (fetchedAt : Time)
      (draw : SourceText → Option Str)
  | fails (ack : Ack) (ticket : OASyncTicket) (code : OASyncFailureCode) (finishedAt : Time)

def SyncCall.program : SyncCall → Prog State Failure Unit
  | .synchronises sync => syncSnapshots sync
  | .begins ack subject stream startedAt => (beginOaSync ack subject stream startedAt).discard
  | .applies ack ticket displayName collection fetchedAt draw =>
    (applyOaPendingSnapshot ack ticket displayName collection fetchedAt draw).discard
  | .fails ack ticket code finishedAt => finishOaSyncFailure ack ticket code finishedAt

def Unused (s : State) : Prop :=
  (∀ user stream, s.sync user stream = none) ∧ s.works = [] ∧ s.observations = []

/-- Interleavings of any synchronisations. A process that dies leaves the store
as it is, and nothing else writes these tables. -/
def SyncRun : List State → Procs State Failure → Prop :=
  PoolRun Unused (fun s s' => s' = s) (fun _ p => ∃ call : SyncCall, p = call.program) fun _ s => s

end EternalAI.Sync
