import EternalAI.Leases.Store
import EternalAI.Lib.Commit

/-!
# Browser leases — the operations and their runs

The operations of `PostgreSQLBrowserLeaseStore` as the workers call them. Between
two transactions of an operation anything may happen: provider evidence is
verified, the subject of the resource is read, the authority is checked again,
and other workers move the lease.

* `reserve`, `startAcquisition`, `recordAcquired`, `renew`,
  `authorizeResource`, `quarantine`, `cleanup`, `recoverCleanup`.
* `LeaseRun` — the interleavings of any number of them, with any claim values.
-/

namespace EternalAI.Leases

open Lib
open Dispatch (Str Time)

/-- The answers of the ports during one operation, in the order they are asked,
with the fate of its last transaction. -/
structure Answers where
  current : Nat → Except LeaseError Unit
  (subject cleanup recovery : Except LeaseError Unit)
  (verification nonce : Nat)
  ack : Ack

variable {α : Type}

section

variable (env : LeaseEnv) (claim : Claim) (answers : Answers)

def write (f : State → Except LeaseError (α × State)) : Prog State LeaseError α :=
  transact answers.ack .storage .storage (fun _ => true) f

/-- A check under locks that writes nothing. -/
def look (f : State → Except LeaseError α) : Prog State LeaseError α := do
  let found ← Prog.read f
  Prog.ofExcept found

def reserve (env : LeaseEnv) (auth : AuthFact) (binding : BindingFact) (name : Str)
    (ttlSeconds : Int) (draw : Reservation) (answers : Answers) : Prog State LeaseError Claim := do
  let duration ← Prog.ofExcept (ttl ttlSeconds)
  let pool ← Prog.ofExcept (env.pool name)
  let _ ← Prog.ofExcept (checkCurrent auth (.fact binding) (answers.current 0))
  write answers (State.reserve env auth binding pool duration (answers.current 1) draw)

def startAcquisition (env : LeaseEnv) (claim : Claim) (answers : Answers) :
    Prog State LeaseError Claim := do
  let pool ← Prog.ofExcept (env.pool claim.providerKey)
  write answers (State.startAcquisition env claim pool (answers.current 0))

/-- `record_acquired`: evidence is verified and the subject read without locks,
and the lease is checked before and after each of these. -/
def recordAcquired (env : LeaseEnv) (claim : Claim) (evidence : Bytes) (answers : Answers) :
    Prog State LeaseError Claim := do
  let pool ← Prog.ofExcept (env.pool claim.providerKey)
  let _ ← Prog.ofExcept (checkCurrent claim.auth claim.binding (answers.current 0))
  let row ← look (State.businessLocked env claim pool (answers.current 1))
  Prog.require (row.acquisitionPhase = .acquiring) .acquisitionPhaseInvalid
  let _ ← Prog.ofExcept (checkCurrent claim.auth claim.binding (answers.current 2))
  let fact ← Prog.ofExcept (env.verified answers.verification claim pool none evidence)
  Prog.require (fact.outcome = .acquired) .providerProofMismatch
  let row ← look (State.businessLocked env claim pool (answers.current 3))
  Prog.require (row.acquisitionPhase = .acquiring) .acquisitionPhaseInvalid
  let _ ← Prog.ofExcept (checkCurrent claim.auth claim.binding (answers.current 4))
  Prog.ofExcept answers.subject
  let _ ← Prog.ofExcept (checkCurrent claim.auth claim.binding (answers.current 5))
  let envelope ← Prog.ofExcept (env.encrypt answers.nonce claim fact.resourceRef)
  write answers (State.recordAcquired env claim pool envelope evidence (answers.current 6))

def renew (env : LeaseEnv) (claim : Claim) (ttlSeconds : Int) (answers : Answers) :
    Prog State LeaseError Claim := do
  let duration ← Prog.ofExcept (ttl ttlSeconds)
  let pool ← Prog.ofExcept (env.pool claim.providerKey)
  write answers (State.renew env claim pool duration (answers.current 0))

/-- The last check of `authorize_resource`: the reference is still the one that
was decrypted. -/
def State.authorized (pool : Pool) (envelope : Option ResourceEnvelope)
    (current : Except LeaseError Unit) (s : State) : Except LeaseError Unit := do
  let row ← s.businessLocked env claim pool current
  ensure (row.resource.map (·.encryptedPayload) = envelope.map (·.encryptedPayload)) .leaseStale

def authorizeResource : Prog State LeaseError Bytes := do
  let pool ← Prog.ofExcept (env.pool claim.providerKey)
  let row ← look (State.businessLocked env claim pool (answers.current 0))
  Prog.require (row.acquisitionPhase = .acquired) .resourceUnavailable
  let found ← Prog.ofExcept (env.resource row claim)
  match found with
  | none => .raise .resourceUnavailable
  | some resource => do
    let _ ← Prog.ofExcept (checkCurrent claim.auth claim.binding (answers.current 1))
    Prog.ofExcept answers.subject
    look (State.authorized env claim pool row.resource (answers.current 2))
    pure resource

def quarantine (env : LeaseEnv) (claim : Claim) (answers : Answers) :
    Prog State LeaseError Claim := do
  let pool ← Prog.ofExcept (env.pool claim.providerKey)
  Prog.ofExcept answers.cleanup
  write answers (State.quarantine env claim pool)

/-- The unlocked read of `_snapshot`. -/
def State.snapshot (s : State) : Except LeaseError Lease :=
  match s.lease claim.binding.key with
  | none => .error .leaseStale
  | some row => do
    row.matches claim false
    pure row

/-- The part of `cleanup` that verifies evidence of a release. -/
def provenRelease (pool : Pool) (evidence : Bytes) (answers : Answers) :
    Prog State LeaseError Proof := do
  let row ← look (State.snapshot claim)
  let resource ← Prog.ofExcept (env.resource row claim)
  let fact ← Prog.ofExcept (env.verified answers.verification claim pool resource evidence)
  Prog.require (fact.outcome ≠ .acquired) .providerReleaseUnproven
  pure ⟨evidence, fact⟩

def cleanup (env : LeaseEnv) (claim : Claim) (evidence : Option Bytes) (answers : Answers) :
    Prog State LeaseError Bool := do
  let pool ← Prog.ofExcept (env.pool claim.providerKey)
  Prog.ofExcept answers.cleanup
  match evidence with
  | none => write answers (State.cleanup env claim pool none)
  | some evidence => do
    let proof ← provenRelease env claim pool evidence answers
    write answers (State.cleanup env claim pool (some proof))

/-- The claim that `recover_cleanup` builds of a row. -/
def Lease.recovered (row : Lease) : Option Claim := do
  let holderSessionId ← row.holderSessionId
  let fingerprint ← row.authSessionFingerprint
  let expiresAt ← row.authExpiresAt
  let bindingRevision ← row.bindingRevision
  let holderId ← row.holderId
  let operationId ← row.acquisitionOperationId
  let providerKey ← row.providerKey
  let deadline ← row.deadline
  if hMode : row.authorizationRevision.isSome ≠ row.authorizationRunId.isSome then
    some ⟨⟨⟨row.key.tenantId, row.key.aiUserId, holderSessionId⟩, row.authorizationRevision,
      row.authorizationRunId, fingerprint, expiresAt, hMode⟩, .snapshot row.key bindingRevision,
      row.leaseEpoch, row.leaseRevision, holderId, operationId, providerKey, deadline⟩
  else none

/-- The pool of a stored provider key; a null key is no name of a pool. -/
def LeaseEnv.storedPool : Option Str → Except LeaseError Pool
  | some providerKey => env.pool providerKey
  | none =>
    if env.registry.isSome then .error .providerPoolUnknown
    else .error .providerAuthorityUnavailable

/-- `recover_cleanup`: the claim of an unreleased lease, without its subject. The
authority is asked about the key first and about the claim at the end. -/
def recoverCleanup (key : BindingKey) (answers : Answers) : Prog State LeaseError Claim := do
  Prog.ofExcept answers.recovery
  let found ← Prog.read fun s => s.lease key
  match found with
  | none => .raise .leaseStale
  | some row => do
    Prog.require (row.state ≠ .released ∧ row.capacityHeld = true) .leaseStale
    let _ ← Prog.ofExcept (env.storedPool row.providerKey)
    match row.recovered with
    -- an unreleased row has all these columns, so this is never reached
    | none => .raise .storage
    | some claim => do
      Prog.ofExcept answers.cleanup
      pure claim

end

/-! ## Runs -/

inductive LeaseCall where
  | reserves (auth : AuthFact) (binding : BindingFact) (name : Str) (ttlSeconds : Int)
      (draw : Reservation)
  | starts (claim : Claim)
  | records (claim : Claim) (evidence : Bytes)
  | renews (claim : Claim) (ttlSeconds : Int)
  | authorizes (claim : Claim)
  | quarantines (claim : Claim)
  | cleans (claim : Claim) (evidence : Option Bytes)
  | recovers (key : BindingKey)

def LeaseCall.program (env : LeaseEnv) (answers : Answers) : LeaseCall → Prog State LeaseError Unit
  | .reserves auth binding name ttlSeconds draw =>
    (reserve env auth binding name ttlSeconds draw answers).discard
  | .starts claim => (startAcquisition env claim answers).discard
  | .records claim evidence => (recordAcquired env claim evidence answers).discard
  | .renews claim ttlSeconds => (renew env claim ttlSeconds answers).discard
  | .authorizes claim => (authorizeResource env claim answers).discard
  | .quarantines claim => (quarantine env claim answers).discard
  | .cleans claim evidence => (cleanup env claim evidence answers).discard
  | .recovers key => (recoverCleanup env key answers).discard

/-- What else happens: time passes and credentials change. -/
structure Outside (s s' : State) : Prop where
  clock : s.clock ≤ s'.clock
  leases : s'.leases = s.leases

def Unleased (s : State) : Prop := s.leases = []

/-- Interleavings of any operations, from a table without leases. A worker that
dies leaves the database as it is. -/
def LeaseRun (env : LeaseEnv) : List State → Procs State LeaseError → Prop :=
  PoolRun Unleased Outside
    (fun _ p => ∃ (call : LeaseCall) (answers : Answers), p = call.program env answers) fun _ s => s

end EternalAI.Leases
