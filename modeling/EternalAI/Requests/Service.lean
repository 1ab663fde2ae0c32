import EternalAI.Requests.Model
import EternalAI.Lib.Commit

/-!
# Canonical requests — the operations and their interleavings

The operations of `PostgreSQLBrowserRunStore` on requests, called by any number of
processes, which may vanish at any point. Beside the database, a world keeps what the
store has answered so far, with the input that was asked about: an answer belongs to
the commit that gave it, whether or not it reaches the caller.

* `lookupRequest`, `getOrCreateRequest`, `rejectRequest`, `accept` — the operations.
* `Outside` — the clock, and the life of accepted runs.
* `RequestRun` — the interleavings.
-/

namespace EternalAI.Requests

open Lib
open Dispatch (Str Time)
open Leases (Bytes Owner)
open Runs (TaskStatus Run Admission)

variable {α : Type}

structure Told where
  input : Bytes
  request : CanonicalRequest

def Told.key (a : Told) : Owner × Str := (a.request.owner, a.request.clientRequestId)

/-- The database, and all answers that it has committed. -/
structure World where
  db : State
  told : List Told

/-- A transaction of the database with what it tells. -/
def telling (tell : α → List Told) (f : State → Except RequestError (α × State)) (w : World) :
    Except RequestError (α × World) := do
  let (a, s) ← f w.db
  pure (a, ⟨s, tell a ++ w.told⟩)

def commit (ack : Ack) (tell : α → List Told) (f : State → Except RequestError (α × State)) :
    Prog World RequestError α :=
  transact ack .storage .storage (fun _ => true) (telling tell f)

/-! ## Operations -/

section Operations

variable (mac : Bytes → Bytes → Bytes) (ring : Keyring) (owner : Owner) (clientRequestId : Str)
  (input : Bytes) (answers : Answers) (ack : Ack)

def lookupRequest (settleExpired : Bool) :
    Prog World RequestError (Option CanonicalRequest) := do
  Prog.ofExcept (checkedRunId clientRequestId)
  Prog.ofExcept (checkedInput input)
  commit ack (fun r => (r.map (Told.mk input)).toList)
    (State.lookupRequest mac ring owner clientRequestId input settleExpired answers)

def getOrCreateRequest (processingOwner : Str) (ttlSeconds : Int) (taskId traceId : Str) :
    Prog World RequestError CanonicalRequest := do
  Prog.ofExcept (checkedRunId clientRequestId)
  Prog.ofExcept (checkedRunId processingOwner)
  let duration ← Prog.ofExcept (ttl ttlSeconds)
  Prog.ofExcept (checkedInput input)
  commit ack (fun r => [⟨input, r⟩])
    (State.getOrCreateRequest mac ring owner clientRequestId input processingOwner duration
      taskId traceId answers)

def rejectRequest (request : CanonicalRequest) (errorCode : Str) :
    Prog World RequestError Unit := do
  Prog.ofExcept (checkedCode errorCode)
  commit ack (fun _ => []) (State.rejectRequest request errorCode answers)

/-- `accept` and `accept_teaching`. -/
def accept (request : CanonicalRequest) (admission : Admission) (teaching : Bool) :
    Prog World RequestError RunRef := do
  Prog.require (request.owner = admission.owner ∧ request.taskId = admission.taskId)
    .requestOwnerMismatch
  Prog.ofExcept (admissionCheck admission)
  commit ack (fun _ => []) (State.accept request admission teaching answers)

end Operations

/-- Something that is asked of the store. Whoever accepts or rejects may hold any
request. -/
inductive RequestCall where
  | looksUp (ring : Keyring) (owner : Owner) (clientRequestId : Str) (input : Bytes)
      (settleExpired : Bool)
  | requests (ring : Keyring) (owner : Owner) (clientRequestId : Str) (input : Bytes)
      (processingOwner : Str) (ttlSeconds : Int) (taskId traceId : Str)
  | rejects (request : CanonicalRequest) (errorCode : Str)
  | accepts (request : CanonicalRequest) (admission : Admission) (teaching : Bool)

def RequestCall.program (mac : Bytes → Bytes → Bytes) (answers : Answers) (ack : Ack) :
    RequestCall → Prog World RequestError Unit
  | .looksUp ring owner clientRequestId input settleExpired =>
    (lookupRequest mac ring owner clientRequestId input answers ack settleExpired).discard
  | .requests ring owner clientRequestId input processingOwner ttlSeconds taskId traceId =>
    (getOrCreateRequest mac ring owner clientRequestId input answers ack processingOwner
      ttlSeconds taskId traceId).discard
  | .rejects request errorCode => (rejectRequest answers ack request errorCode).discard
  | .accepts request admission teaching => (accept answers ack request admission teaching).discard

/-! ## Runs -/

inductive Outside : World → World → Prop
  | ticks {w : World} {now : Time} : w.db.clock ≤ now →
      Outside w { w with db := { w.db with clock := now } }
  /-- An operation of the run store on an accepted run and its task. -/
  | works {w : World} {run run' : Run} {status : TaskStatus} {errorCode : Option Str} :
      run ∈ w.db.runs → run'.admission = run.admission → status ≠ .created →
      Outside w { w with db := { w.db with
        runs := modify Run.admission run.admission (fun _ => run') w.db.runs
        tasks := modify TaskRow.key (taskOf run)
          (fun row => { row with status := status, errorCode := errorCode }) w.db.tasks } }

def Blank (w : World) : Prop := w.db.tasks = [] ∧ w.db.runs = [] ∧ w.told = []

/-- Interleavings of any operations on requests. A process that dies leaves the
database as it is. -/
def RequestRun (mac : Bytes → Bytes → Bytes) : List World → Procs World RequestError → Prop :=
  PoolRun Blank Outside
    (fun _ p => ∃ (call : RequestCall) (answers : Answers) (ack : Ack),
      p = call.program mac answers ack) fun _ w => w

end EternalAI.Requests
