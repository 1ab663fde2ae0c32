import EternalAI.Runs.Model

/-!
# Canonical requests — rows, digests and transactions

A client names every browser request by an id of its own. The task of a request is
claimed by one process, which parses the input and then accepts it as a run or
rejects it. The model follows `PostgreSQLBrowserRunStore` in
`app/infra/persistence/browser/runs.py`: the tasks with a client request id, the
runs, and the bodies of the transactions between them.

* Each transaction takes the state at the moment its row is locked, or its advisory
  lock is taken, and the answers of the authority; it refuses or returns the state to
  be committed. A later look at the clock in the same transaction is `elapsed` after
  that moment.
* The keyed hash is a parameter; what it is applied to is spelled out.
-/

namespace EternalAI.Requests

open Lib
open Dispatch (Str Time)
open Leases (Bytes Owner)
open Runs (TaskStatus Run Admission maxRunRevision)

/-! ## Vocabulary -/

/-- The codes of `BrowserRunStoreError` here; `authority` is a refusal of the
authority, `integrity` one of a key of the database and `storage` any failure of the
database itself. -/
inductive RequestError where
  | runIdentityInvalid | runDigestInvalid | runTtlInvalid | runErrorCodeInvalid
  | runAdmissionInvalid | runAuthorizationExpired
  | requestInputInvalid | requestDigestKeyUnavailable | requestKeyConflict
  | requestNotProcessingOwner | requestClaimStale | requestOwnerMismatch
  | requestAlreadyAccepted | canonicalRunAmbiguous
  | authority | integrity | storage
  deriving DecidableEq, Repr

/-- A row of `tasks` with a client request id. -/
structure TaskRow where
  owner : Owner
  (taskId traceId : Str)
  status : TaskStatus
  errorCode : Option Str
  (clientRequestId requestSchemaVersion : Str)
  requestDigest : Bytes
  requestDigestKeyId : Str
  processingOwner : Option Str
  processingDeadline : Option Time
  deriving DecidableEq

/-- `tasks.task_id` with the owner, as in `_TASK`. -/
def TaskRow.key (row : TaskRow) : Owner × Str := (row.owner, row.taskId)

def TaskRow.request (row : TaskRow) : Owner × Str := (row.owner, row.clientRequestId)

def taskOf (run : Run) : Owner × Str := (run.admission.owner, run.admission.taskId)

structure CanonicalRequest where
  owner : Owner
  (taskId traceId clientRequestId requestDigestKeyId : Str)
  requestDigest : Bytes
  processingOwner : Option Str
  processingDeadline : Option Time
  parseWinner : Bool
  taskStatus : TaskStatus
  errorCode : Option Str
  run : Option Run
  deriving DecidableEq

/-- `BrowserRunRef`, as a commit fact carries it. -/
structure RunRef where
  owner : Owner
  (taskId runId : Str)
  stateRevision : Nat
  deriving DecidableEq

structure State where
  clock : Time
  tasks : List TaskRow
  runs : List Run

/-- The answers of the authority during one operation: `check_owner`, `check_run` for
reading, `check_admission` or `check_teaching_admission`, and the checks of a teaching
plan once the run is inserted. -/
structure Answers where
  owner : Except RequestError Unit
  run : Run → Except RequestError Unit
  (admission teaching : Except RequestError Unit)
  elapsed : Nat

/-! ## Arguments -/

def idChar (c : Char) : Bool := c.isAlphanum || c = '_' || c = '-'

def checkedRunId (value : Str) : Except RequestError Unit :=
  ensure (1 ≤ value.length ∧ value.length ≤ 96 ∧ value.all idChar) .runIdentityInvalid

def checkedRunDigest (value : Bytes) : Except RequestError Unit :=
  ensure (value.length = 32) .runDigestInvalid

def ttl (seconds : Int) : Except RequestError Time := do
  ensure (1 ≤ seconds ∧ seconds ≤ 300) .runTtlInvalid
  pure (seconds * 1000000)

def checkedInput (input : Bytes) : Except RequestError Unit :=
  ensure (1 ≤ input.length ∧ input.length ≤ 1048576) .requestInputInvalid

/-- `_code`, for a code that is given. -/
def checkedCode : Str → Except RequestError Unit
  | [] => .error .runErrorCodeInvalid
  | c :: cs => ensure (c.isLower ∧ cs.length ≤ 95 ∧
      cs.all fun c => c.isLower || c.isDigit || c = '_') .runErrorCodeInvalid

/-- `RunAdmission.__post_init__`. -/
def admissionCheck (admission : Admission) : Except RequestError Unit := do
  checkedRunId admission.taskId
  checkedRunId admission.runId
  checkedRunId admission.bindingId
  checkedRunDigest admission.authFingerprint
  checkedRunDigest admission.publicationDigest
  checkedRunDigest admission.inputDigest
  ensure ((1 ≤ admission.bindingRevision ∧ admission.bindingRevision ≤ maxRunRevision) ∧
    (1 ≤ admission.inputRevision ∧ admission.inputRevision ≤ maxRunRevision) ∧
    admission.protectedInput.cipherVersion = "aes256gcm-browser-input-v1".toList)
    .runAdmissionInvalid

/-! ## Digests -/

def requestVersion : Str := "browser.request.v1".toList

/-- The keys that a process is configured with; it has the active one. -/
structure Keyring where
  keys : Str → Option Bytes
  active : Str
  active_known : (keys active).isSome

/-- `str.encode("ascii")`. -/
def ascii (text : Str) : Bytes := text.map fun c => UInt8.ofNat c.toNat

/-- `int.to_bytes(8, "big")`. -/
def bigEndian8 (n : Nat) : Bytes :=
  [7, 6, 5, 4, 3, 2, 1, 0].map fun i => UInt8.ofNat (n / Nat.pow 256 i % 256)

def identity (owner : Owner) (requestId keyId : Str) : Bytes :=
  ascii (Json.asciiStrings [requestVersion, "hmac-sha256-v1".toList, keyId, owner.tenantId,
    owner.userId, owner.sessionId, requestId])

/-- The text that is hashed: the identity with its length, and the input. -/
def message (owner : Owner) (requestId keyId : Str) (input : Bytes) : Bytes :=
  let identity := identity owner requestId keyId
  bigEndian8 identity.length ++ identity ++ input

def Keyring.digest (mac : Bytes → Bytes → Bytes) (ring : Keyring) (owner : Owner)
    (requestId : Str) (input : Bytes) (keyId : Str) : Except RequestError Bytes :=
  match ring.keys keyId with
  | none => .error .requestDigestKeyUnavailable
  | some key => .ok (mac key (message owner requestId keyId input))

/-! ## Rows -/

section

variable (s : State) (row : TaskRow)

def State.requestRow (owner : Owner) (clientRequestId : Str) : Option TaskRow :=
  lookup TaskRow.request (owner, clientRequestId) s.tasks

def State.taskRun (owner : Owner) (taskId : Str) : Except RequestError (Option Run) :=
  match s.runs.filter fun run => taskOf run = (owner, taskId) with
  | [] => .ok none
  | [run] => .ok (some run)
  | _ :: _ :: _ => .error .canonicalRunAmbiguous

/-- `_request`. -/
def TaskRow.canonical (parseWinner : Bool) (run : Option Run) : CanonicalRequest where
  owner := row.owner
  taskId := row.taskId
  traceId := row.traceId
  clientRequestId := row.clientRequestId
  requestDigestKeyId := row.requestDigestKeyId
  requestDigest := row.requestDigest
  processingOwner := row.processingOwner
  processingDeadline := row.processingDeadline
  parseWinner := parseWinner
  taskStatus := row.status
  errorCode := row.errorCode
  run := run

/-- The claim of a row is over, as a settlement sees it. -/
def TaskRow.expired (now : Time) : Prop := ∀ d ∈ row.processingDeadline, d ≤ now

instance (now : Time) : Decidable (row.expired now) :=
  inferInstanceAs (Decidable (∀ d ∈ row.processingDeadline, d ≤ now))

def TaskRow.failedWith (errorCode : Str) : TaskRow :=
  { row with status := .failed, errorCode := some errorCode, processingOwner := none,
             processingDeadline := none }

def TaskRow.abandoned : TaskRow :=
  row.failedWith "browser_request_abandoned".toList

def TaskRow.running (row : TaskRow) : TaskRow :=
  { row with status := .running, errorCode := none, processingOwner := none,
             processingDeadline := none }

/-- `UPDATE tasks … WHERE _TASK AND status='created'`. -/
def State.leaveCreated (key : Owner × Str) (change : TaskRow → TaskRow) : State :=
  { s with tasks := modify TaskRow.key key
             (fun row => if row.status = .created then change row else row) s.tasks }

/-- The insertion of a task, under the primary key and the unique index of requests. -/
def State.insertTask : Except RequestError State := do
  ensure (∀ t ∈ s.tasks, t.taskId ≠ row.taskId ∧ t.request ≠ row.request) .integrity
  pure { s with tasks := s.tasks ++ [row] }

/-- The insertion of a run, under its primary key, its task and the index of active
runs. -/
def State.insertRun (run : Run) : Except RequestError State := do
  ensure ((∃ t ∈ s.tasks, t.key = taskOf run) ∧
    ∀ r ∈ s.runs, r.admission.runId ≠ run.admission.runId ∧
      (r.status.active → r.admission.taskId ≠ run.admission.taskId)) .integrity
  pure { s with runs := s.runs ++ [run] }

end

/-! ## Transactions -/

section

variable (mac : Bytes → Bytes → Bytes) (ring : Keyring) (row : TaskRow) (owner : Owner)

def TaskRow.sameInput (clientRequestId : Str) (input : Bytes) : Except RequestError Unit := do
  let digest ← ring.digest mac owner clientRequestId input row.requestDigestKeyId
  ensure (row.requestSchemaVersion = requestVersion ∧ digest = row.requestDigest)
    .requestKeyConflict

/-- The end of both requests for a row: its run, or its settlement if it may be settled
and its claim has expired. -/
def State.settled (s : State) (row : TaskRow) (settleExpired : Bool) (answers : Answers) :
    Except RequestError ((TaskRow × Option Run) × State) := do
  let run ← s.taskRun row.owner row.taskId
  match run with
  | some run => do
    answers.run run
    pure ((row, some run), s)
  | none =>
    if settleExpired ∧ row.status = .created ∧ row.expired s.clock then
      pure ((row.abandoned, none), s.leaveCreated row.key TaskRow.abandoned)
    else pure ((row, none), s)

def State.lookupRequest (clientRequestId : Str) (input : Bytes) (settleExpired : Bool)
    (answers : Answers) (s : State) : Except RequestError (Option CanonicalRequest × State) := do
  answers.owner
  match s.requestRow owner clientRequestId with
  | none => pure (none, s)
  | some row => do
    row.sameInput mac ring owner clientRequestId input
    let ((row, run), s) ← s.settled row settleExpired answers
    pure (some (row.canonical false run), s)

def newClaim (clientRequestId taskId traceId processingOwner : Str) (digest : Bytes) (keyId : Str)
    (deadline : Time) : TaskRow where
  owner := owner
  taskId := taskId
  traceId := traceId
  status := .created
  errorCode := none
  clientRequestId := clientRequestId
  requestSchemaVersion := requestVersion
  requestDigest := digest
  requestDigestKeyId := keyId
  processingOwner := some processingOwner
  processingDeadline := some deadline

/-- `get_or_create_request`; the ids are those drawn for a new task. -/
def State.getOrCreateRequest (clientRequestId : Str) (input : Bytes) (processingOwner : Str)
    (duration : Time) (taskId traceId : Str) (answers : Answers) (s : State) :
    Except RequestError (CanonicalRequest × State) := do
  answers.owner
  match s.requestRow owner clientRequestId with
  | none => do
    let digest ← ring.digest mac owner clientRequestId input ring.active
    let row := newClaim owner clientRequestId taskId traceId processingOwner digest ring.active
      (s.clock + duration)
    let s ← s.insertTask row
    let ((row, run), s) ← s.settled row false answers
    pure (row.canonical true run, s)
  | some row => do
    row.sameInput mac ring owner clientRequestId input
    let ((row, run), s) ← s.settled row true answers
    pure (row.canonical false run, s)

def TaskRow.claimedBy (request : CanonicalRequest) (now : Time) : Prop :=
  row.taskId = request.taskId ∧ row.status = .created ∧
    row.processingOwner = request.processingOwner ∧
    row.processingDeadline = request.processingDeadline ∧
    row.requestSchemaVersion = requestVersion ∧
    row.requestDigestKeyId = request.requestDigestKeyId ∧
    row.requestDigest = request.requestDigest ∧ ∃ d ∈ row.processingDeadline, now < d

instance (request : CanonicalRequest) (now : Time) : Decidable (row.claimedBy request now) := by
  unfold TaskRow.claimedBy
  infer_instance

end

def State.lockRequest (s : State) (request : CanonicalRequest) : Except RequestError TaskRow := do
  ensure (request.parseWinner ∧ request.processingOwner.isSome) .requestNotProcessingOwner
  match s.requestRow request.owner request.clientRequestId with
  | none => .error .requestClaimStale
  | some row => do
    ensure (row.claimedBy request s.clock) .requestClaimStale
    pure row

def State.rejectRequest (request : CanonicalRequest) (errorCode : Str) (answers : Answers)
    (s : State) : Except RequestError (Unit × State) := do
  answers.owner
  let _ ← s.lockRequest request
  pure ((), s.leaveCreated (request.owner, request.taskId) (TaskRow.failedWith · errorCode))

def Answers.planned (answers : Answers) (teaching : Bool) : Except RequestError Unit :=
  if teaching then answers.teaching else pure ()

/-- `_accept`, with or without a teaching plan. -/
def State.accept (request : CanonicalRequest) (admission : Admission) (teaching : Bool)
    (answers : Answers) (s : State) : Except RequestError (RunRef × State) := do
  answers.owner
  let _ ← s.lockRequest request
  answers.admission
  ensure (s.clock + answers.elapsed < admission.authExpiresAt) .runAuthorizationExpired
  let run ← s.taskRun request.owner request.taskId
  ensure (run = none) .requestAlreadyAccepted
  let s ← s.insertRun (Run.accepted admission)
  answers.planned teaching
  ensure (∃ t ∈ s.tasks, t.key = (admission.owner, admission.taskId) ∧ t.status = .created)
    .requestClaimStale
  pure (⟨admission.owner, admission.taskId, admission.runId, 0⟩,
    s.leaveCreated (admission.owner, admission.taskId) TaskRow.running)

end EternalAI.Requests
