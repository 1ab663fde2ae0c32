import EternalAI.Runs.WriteStore
import EternalAI.Lib.Commit

/-!
# Browser runs — the operations and their interleavings

The operations of `PostgreSQLBrowserRunStore` as workers, owners and recovery
services call them, with any snapshot of the run in hand. An operation that looks
at the run before it locks it does so in an action of its own, so that anything may
happen in between.

* `claimNext`, `refreshWorker`, and the calls that are one transaction.
* `RunCall` — everything that is asked of the store about one run.
* `Outside` — what others do: the clock, the human gate, the task's bindings, the
  profile store, and records of the journal that no modelled operation reads.
* `StoreRun` — the interleavings of any number of calls.
-/

namespace EternalAI.Runs

open Lib
open Dispatch (Str Time)
open Leases (Bytes Owner)

variable {α : Type}

def write (ack : Ack) (f : State → Except RunError (α × State)) : Prog State RunError α :=
  transact ack .storage .storage (fun _ => true) f

/-! ## Operations that read first -/

/-- A run as `_claim_candidates` looks for it. -/
def State.eligible (s : State) (owner : Owner) : Bool :=
  s.run.admission.owner = owner ∧ s.run.status.active ∧ ∀ d ∈ s.run.workerDeadline, d ≤ s.clock

/-- `_CLAIM_SKIPPABLE`. -/
def RunError.skippable : RunError → Bool
  | .candidateIneligible | .candidateBusy | .runNotFound | .runStale => true
  | _ => false

/-- `_claim_candidate`: `ready` is the scheduling hint, `busy` says that another
transaction holds one of the rows. -/
def claimCandidate (workerId : Str) (duration : Time) (ready busy : Bool) (answers : Answers)
    (ack : Ack) : Prog State RunError (Option Run) := do
  let before ← Prog.read State.run
  if ready then do
    Prog.ofExcept answers.before
    Prog.require (busy = false) .candidateBusy
    let run ← write ack (State.claimCandidate before workerId duration answers)
    pure (some run)
  else pure none

/-- `claim_next`, as far as it reaches this run. -/
def claimNext (owner : Owner) (workerId : Str) (ttlSeconds : Int) (ready busy : Bool)
    (answers : Answers) (ack : Ack) : Prog State RunError (Option Run) := do
  let duration ← Prog.ofExcept (ttl ttlSeconds)
  let found ← Prog.read fun s => s.eligible owner
  if found then do
    let result ← (claimCandidate workerId duration ready busy answers ack).attempt
    match result with
    | .ok run => pure run
    | .error e => do
      Prog.require (e.skippable = true) e
      pure none
  else pure none

/-- `refresh_worker`: the row is read first, and must be the one that is locked. -/
def refreshWorker (previous : Run) (ttlSeconds : Int) (answers : Answers) (ack : Ack) :
    Prog State RunError Run := do
  let duration ← Prog.ofExcept (ttl ttlSeconds)
  let found ← Prog.read fun s => s.readRun previous.admission.owner previous.admission.taskId
    previous.admission.runId
  let candidate ← Prog.ofExcept found
  Prog.ofExcept (candidate.checkpoint previous)
  write ack (State.refreshWorker candidate duration answers)

/-- An owner's or a service's request, which reads the run it is about. -/
def onRun (owner : Owner) (taskId runId : Str) (ack : Ack)
    (f : Run → State → Except RunError (α × State)) : Prog State RunError α := do
  let found ← Prog.read fun s => s.readRun owner taskId runId
  let initial ← Prog.ofExcept found
  write ack (f initial)

def renew (claim : Run) (ttlSeconds : Int) (answers : Answers) (ack : Ack) :
    Prog State RunError Run := do
  let duration ← Prog.ofExcept (ttl ttlSeconds)
  write ack (State.renew claim duration answers)

/-! ## Calls -/

inductive LifeCall where
  | claims (owner : Owner) (workerId : Str) (ttlSeconds : Int) (ready busy : Bool)
  | refreshes (previous : Run) (ttlSeconds : Int)
  | renews (claim : Run) (ttlSeconds : Int)
  | advances (claim : Run) (phase : RunPhase) (effect : RunEffect)
  | attaches (claim : Run) (providerKey : Str) (manifestDigest : Bytes) (leaseEpoch : Nat)
  | verifies (claim : Run) (result : Envelope) (resultDigest evidenceDigest : Bytes)
      (rejectCancel : Bool)
  | preparesCapture (claim : Run) (operationId : Str)
  | movesCapture (claim : Run) (status : CaptureStatus) (profileGenerationId : Option Str)
  | cancels (owner : Owner) (taskId runId : Str)
  | acknowledges (claim : Run)
  | finalizes (claim : Run) (status : RunStatus) (errorCode : Option Str)
      (verification : Option RunVerification) (dispatchFailureCode : Option DispatchFailureCode)
  | cleans (claim : Run) (cleanup : RunCleanup)
  | entersHandoff (claim : Run) (content : HandoffSeal)
  | asksCheck (owner : Owner) (taskId runId : Str)
  | settlesCheck (claim : Run) (outcome : HandoffSettleOutcome)
  | closesHandoff (claim : Run) (reason : HandoffReason)
  | expiresHandoff (owner : Owner) (taskId runId : Str)
  | quarantines (owner : Owner) (taskId runId : Str)

inductive WriteCall where
  | prepares (claim : Run) (preparation : WritePreparation)
  | reserves (claim : Run) (command : ActionCommand) (rule : SiteStepRule) (spec : ReadSpec)
      (sequence : Nat)
  | asserts (claim : Run) (command : ActionCommand) (sequence : Nat)
  | records (claim : Run) (command : ActionCommand) (rule : SiteStepRule) (scope : ScopeStamp)
      (receipt : DispatchReceipt) (policyDigest : Bytes) (sequence : Nat)
  | ends (claim : Run) (pages : List PageEvidence) (sequence : Nat)
  | reports (claim : Run) (report : FillStopReport)
  | reservesFlow (claim : Run)
  | assertsFlow (claim : Run)

inductive RunCall where
  | life (call : LifeCall)
  | write (call : WriteCall)

section

variable (env : RunEnv) (answers : Answers) (ack : Ack)

def LifeCall.program : LifeCall → Prog State RunError Unit
  | .claims owner workerId ttlSeconds ready busy =>
    (claimNext owner workerId ttlSeconds ready busy answers ack).discard
  | .refreshes previous ttlSeconds => (refreshWorker previous ttlSeconds answers ack).discard
  | .renews claim ttlSeconds => (renew claim ttlSeconds answers ack).discard
  | .advances claim phase effect => (write ack (State.advance claim phase effect answers)).discard
  | .attaches claim providerKey manifestDigest leaseEpoch =>
    (write ack (State.attachLease claim providerKey manifestDigest leaseEpoch answers)).discard
  | .verifies claim result resultDigest evidenceDigest rejectCancel =>
    (write ack
      (State.persistVerified claim result resultDigest evidenceDigest rejectCancel answers)).discard
  | .preparesCapture claim operationId =>
    (write ack (State.prepareCapture claim operationId answers)).discard
  | .movesCapture claim status profileGenerationId =>
    (write ack (State.transitionCapture claim status profileGenerationId answers)).discard
  | .cancels owner taskId runId =>
    (onRun owner taskId runId ack fun initial => State.requestCancel initial answers).discard
  | .acknowledges claim => (write ack (State.acknowledgeCancel claim answers)).discard
  | .finalizes claim status errorCode verification dispatchFailureCode =>
    (write ack
      (State.finalize claim status errorCode verification dispatchFailureCode answers)).discard
  | .cleans claim cleanup => (write ack (State.recordCleanup claim cleanup answers)).discard
  | .entersHandoff claim content =>
    (write ack (State.enterHandoff env claim content answers)).discard
  | .asksCheck owner taskId runId =>
    (onRun owner taskId runId ack fun initial =>
      State.requestHandoffCheck env initial answers).discard
  | .settlesCheck claim outcome =>
    (write ack (State.settleHandoffCheck env claim outcome answers)).discard
  | .closesHandoff claim reason => (write ack (State.finalizeHandoff claim reason answers)).discard
  | .expiresHandoff owner taskId runId =>
    (onRun owner taskId runId ack fun initial =>
      State.expireLostHandoff env initial answers).discard
  | .quarantines owner taskId runId =>
    (onRun owner taskId runId ack fun initial =>
      State.recordHistoricalHandoffQuarantine initial answers).discard

def WriteCall.program : WriteCall → Prog State RunError Unit
  | .prepares claim preparation =>
    (write ack (State.recordWritePreparation env claim preparation answers)).discard
  | .reserves claim command rule spec sequence =>
    (write ack (State.reserveWriteDispatch env claim command rule spec sequence answers)).discard
  | .asserts claim command sequence =>
    (write ack (State.assertWriteReservation env claim command sequence answers)).discard
  | .records claim command rule scope receipt policyDigest sequence =>
    (write ack
      (State.recordStep env claim command rule scope receipt policyDigest sequence answers)).discard
  | .ends claim pages sequence =>
    (write ack (State.recordTraversalTerminal env claim pages sequence answers)).discard
  | .reports claim report => (write ack (State.recordFillStop env claim report answers)).discard
  | .reservesFlow claim => (write ack (State.reserveFillStop env claim answers)).discard
  | .assertsFlow claim => (write ack (State.assertFillStopReservation env claim answers)).discard

def RunCall.program (env : RunEnv) (answers : Answers) (ack : Ack) :
    RunCall → Prog State RunError Unit
  | .life call => call.program env answers ack
  | .write call => call.program env answers ack

/-! ## Runs -/

inductive Outside : State → State → Prop
  /-- Time passes, people decide, and bindings of the task are recorded. -/
  | around {s : State} {clock : Time} {gates : Str → Option GateRow}
      {bindings : Bytes → Option (List SkillBinding)} : s.clock ≤ clock →
      Outside s { s with clock, gates, bindings }
  /-- A teaching plan or a failed step is recorded on an active run. -/
  | audited {s : State} : s.run.status.active →
      Outside s { s with run := { s.run with stateRevision := s.run.stateRevision + 1 } }
  /-- The profile store has validated a sent capture of an active run. -/
  | validated {s : State} {generationId : Str} : s.run.status.active →
      s.run.captureStatus = .sent ∨ s.run.captureStatus = .unknown →
      Outside s { s with run := { s.run with
        profileGenerationId := some generationId
        captureStatus := .validated
        stateRevision := s.run.stateRevision + 1 } }
  /-- The profile store has promoted a validated capture of an active run. -/
  | promoted {s : State} : s.run.status.active → s.run.captureStatus = .validated →
      Outside s { s with run := { s.run with
        captureStatus := .promoted
        stateRevision := s.run.stateRevision + 1 } }

/-- A run that was just accepted, with its running task and no event yet. -/
def Accepted (s : State) : Prop :=
  ∃ admission, s.run = Run.accepted admission ∧ s.task = ⟨.running, none⟩ ∧ s.events = []

/-- Interleavings of any operations on a run, from its acceptance on. A process that
dies leaves the database as it is. -/
def StoreRun : List State → Procs State RunError → Prop :=
  PoolRun Accepted Outside
    (fun _ p => ∃ (call : RunCall) (answers : Answers) (ack : Ack),
      p = call.program env answers ack) fun _ s => s

end

end EternalAI.Runs
