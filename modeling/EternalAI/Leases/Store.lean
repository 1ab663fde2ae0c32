import EternalAI.Leases.Model

/-!
# Browser leases — the locked transactions

What `app/infra/persistence/browser/leases.py` does while it holds its locks:
the capacity rows of the provider, the credential and the lease of the binding,
in this order. Provider and subject calls are made without locks, so each
transaction starts by checking again that the row is the one of the claim.

Every answer of an authority port is an argument (`current`); a business
transaction checks it before it looks at the row.

* `State.locked` — the rows under the locks.
* `State.businessLocked` — the fence of every business operation.
* `State.reserve`, `State.startAcquisition`, `State.recordAcquired`,
  `State.renew`, `State.quarantine`, `State.cleanup`.
-/

namespace EternalAI.Leases

open Lib
open Dispatch (Str Time)

/-! ## Locks and checks -/

def increment (value : Nat) : Except LeaseError Nat := do
  ensure (value < maxBrowserRevision) .leaseRevisionExhausted
  pure (value + 1)

/-- `_ttl`, in microseconds. -/
def ttl (seconds : Int) : Except LeaseError Time := do
  ensure (1 ≤ seconds ∧ seconds ≤ 300) .leaseTtlInvalid
  pure (seconds * 1000000)

/-- What `_locked` yields. -/
structure Locked where
  credential : Credential
  row : Option Lease
  now : Time
  (globalLimit tenantLimit : Nat)

section

variable (env : LeaseEnv) (row : Lease) (claim : Claim) (pool : Pool)

/-- `_locked`: both limits are configured and positive, and the binding exists. -/
def State.locked (key : BindingKey) (pool : Pool) (s : State) : Except LeaseError Locked :=
  match env.limits pool.providerKey none, env.limits pool.providerKey (some key.tenantId) with
  | some globalLimit, some tenantLimit => do
    ensure (0 < globalLimit ∧ 0 < tenantLimit) .capacityUnconfigured
    match s.credentials key with
    | none => .error .bindingMissing
    | some credential => .ok ⟨credential, s.lease key, s.clock, globalLimit, tenantLimit⟩
  | _, _ => .error .capacityUnconfigured

/-- `_current`: a claim for business has a verified binding of its owner, and the
authority ports agree. -/
def checkCurrent (auth : AuthFact) (binding : ClaimBinding) (answer : Except LeaseError Unit) :
    Except LeaseError BindingFact :=
  match binding with
  | .snapshot _ _ => .error .cleanupClaimNotBusiness
  | .fact fact => do
    ensure (auth.owner.tenantId = fact.key.tenantId ∧ auth.owner.userId = fact.key.aiUserId)
      .authorityUnavailable
    answer
    pure fact

/-- `_binding_current`. -/
def Credential.checkCurrent (credential : Credential) (binding : BindingFact) :
    Except LeaseError Unit :=
  ensure (credential.bindingRevision = binding.bindingRevision ∧
    credential.bindingState = .active ∧ credential.revokedAt = none ∧
    credential.subjectDigest = binding.subjectDigest) .bindingStale

/-- `_business_locked`, with the locks it runs under. -/
def State.businessLocked (current : Except LeaseError Unit) (s : State) :
    Except LeaseError Lease := do
  let locked ← s.locked env claim.binding.key pool
  let binding ← checkCurrent claim.auth claim.binding current
  locked.credential.checkCurrent binding
  match locked.row with
  | none => .error .leaseStale
  | some row => do
    row.matches claim true
    ensure (locked.now < claim.deadline ∧ locked.now < claim.auth.expiresAt) .leaseExpired
    pure row

/-! ## Reserve -/

def Lease.reserved (now : Time) : Lease :=
  { row with
    leaseEpoch := claim.leaseEpoch
    leaseRevision := claim.leaseRevision
    holderId := some claim.holderId
    holderSessionId := some claim.auth.owner.sessionId
    bindingRevision := some claim.binding.bindingRevision
    authorizationRevision := claim.auth.authorizationRevision
    authorizationRunId := claim.auth.authorizationRunId
    authSessionFingerprint := some claim.auth.fingerprint
    authExpiresAt := some claim.auth.expiresAt
    deadline := some claim.deadline
    state := .held
    capacityHeld := true
    providerKey := some claim.providerKey
    acquisitionOperationId := some claim.operationId
    acquisitionPhase := .reservationOnly
    acquisitionSendStarted := false
    releaseOutcome := none
    releaseProofDigest := none
    updatedAt := now }

/-- What a reservation draws: its holder and its operation, and whether the run
that authorises it may still acquire. -/
structure Reservation where
  (holderId operationId : Str)
  eligible : Bool

/-- `reserve`, under the locks. -/
def State.reserve (auth : AuthFact) (binding : BindingFact) (pool : Pool) (duration : Time)
    (current : Except LeaseError Unit) (draw : Reservation) (s : State) :
    Except LeaseError (Claim × State) := do
  let locked ← s.locked env binding.key pool
  let _ ← checkCurrent auth (.fact binding) current
  locked.credential.checkCurrent binding
  -- a claim of a run is not created after the run was cancelled
  ensure (auth.authorizationRunId = none ∨ draw.eligible = true) .leaseStale
  ensure (locked.now < auth.expiresAt) .authExpired
  let row := locked.row.getD (.blank binding.key locked.now)
  ensure (row.state = .released) .bindingBusy
  ensure (s.counted pool.providerKey none < locked.globalLimit ∧
    s.counted pool.providerKey (some binding.key.tenantId) < locked.tenantLimit) .capacityExhausted
  let epoch ← increment row.leaseEpoch
  let revision ← increment row.leaseRevision
  let claim : Claim := ⟨auth, .fact binding, epoch, revision, draw.holderId, draw.operationId,
    pool.providerKey, min (locked.now + duration) auth.expiresAt⟩
  pure (claim, s.putLease (row.reserved claim locked.now))

/-! ## Business operations -/

def Lease.started (revision : Nat) (now : Time) : Lease :=
  { row with
    leaseRevision := revision
    acquisitionPhase := .acquiring
    acquisitionSendStarted := true
    updatedAt := now }

def State.startAcquisition (current : Except LeaseError Unit) (s : State) :
    Except LeaseError (Claim × State) := do
  let row ← s.businessLocked env claim pool current
  ensure (row.acquisitionPhase = .reservationOnly ∧ row.acquisitionSendStarted = false)
    .acquisitionAlreadyStarted
  let revision ← increment row.leaseRevision
  pure ({ claim with leaseRevision := revision }, s.putLease (row.started revision s.clock))

def Lease.recorded (revision : Nat) (envelope : ResourceEnvelope) (proof : Bytes) (now : Time) :
    Lease :=
  { row with
    leaseRevision := revision
    acquisitionPhase := .acquired
    resource := some envelope
    resourceProofDigest := some proof
    updatedAt := now }

/-- The last transaction of `record_acquired`. -/
def State.recordAcquired (envelope : ResourceEnvelope) (evidence : Bytes)
    (current : Except LeaseError Unit) (s : State) : Except LeaseError (Claim × State) := do
  let row ← s.businessLocked env claim pool current
  ensure (row.acquisitionPhase = .acquiring) .acquisitionPhaseInvalid
  let revision ← increment row.leaseRevision
  pure ({ claim with leaseRevision := revision },
    s.putLease (row.recorded revision envelope (env.digest .acquireProof evidence) s.clock))

def Lease.renewed (revision : Nat) (deadline now : Time) : Lease :=
  { row with leaseRevision := revision, deadline := some deadline, updatedAt := now }

def State.renew (duration : Time) (current : Except LeaseError Unit) (s : State) :
    Except LeaseError (Claim × State) := do
  let row ← s.businessLocked env claim pool current
  let revision ← increment row.leaseRevision
  let deadline := min (s.clock + duration) claim.auth.expiresAt
  pure ({ claim with leaseRevision := revision, deadline := deadline },
    s.putLease (row.renewed revision deadline s.clock))

/-! ## Quarantine and cleanup -/

def Lease.quarantined (row : Lease) (revision : Nat) (phase : AcquisitionPhase) (now : Time) :
    Lease :=
  { row with
    state := .quarantined
    leaseRevision := revision
    acquisitionPhase := phase
    updatedAt := now }

/-- The row of a claim under the locks, for operations that are no business of
the holder. -/
def State.claimLocked (s : State) : Except LeaseError Lease := do
  let locked ← s.locked env claim.binding.key pool
  match locked.row with
  | none => .error .leaseStale
  | some row => pure row

/-- `quarantine`, under the locks. -/
def State.quarantine (s : State) : Except LeaseError (Claim × State) := do
  let row ← s.claimLocked env claim pool
  row.matches claim false
  let revision ← increment row.leaseRevision
  let phase := if row.acquisitionSendStarted then AcquisitionPhase.unknown else .reservationOnly
  pure ({ claim with leaseRevision := revision, deadline := row.deadline.getD claim.deadline },
    s.putLease (row.quarantined revision phase s.clock))

def Lease.neverSent : Bool :=
  row.acquisitionPhase == .reservationOnly && !row.acquisitionSendStarted && row.resource.isNone

def Lease.cleared (revision : Nat) (outcome : ProviderOutcome) (proof : Bytes) (now : Time) :
    Lease :=
  { Lease.blank row.key now with
    leaseEpoch := row.leaseEpoch
    leaseRevision := revision
    releaseOutcome := some outcome
    releaseProofDigest := some proof }

structure Proof where
  evidence : Bytes
  fact : ProviderFact

def LeaseEnv.releaseDigest : Option Proof → Bytes
  | some proof => env.digest .releaseProof proof.evidence
  | none => env.digest .neverSent (env.challenge claim pool.manifestDigest)

/-- A reference that was recorded is the one the fact is about. -/
def LeaseEnv.checkResource : Option Proof → Except LeaseError Unit
  | none => .ok ()
  | some proof => do
    let resource ← env.resource row claim
    ensure (∀ r ∈ resource, r = proof.fact.resourceRef) .providerProofMismatch

/-- `cleanup`, under the locks: a repeated release is answered, a lease that was
sent and has no proof stays in quarantine, any other is given back. -/
def State.cleanup (proof : Option Proof) (s : State) : Except LeaseError (Bool × State) := do
  let row ← s.claimLocked env claim pool
  if row.state = .released ∧ row.leaseEpoch = claim.leaseEpoch then pure (true, s)
  else do
    row.matches claim false
    let revision ← increment row.leaseRevision
    if row.neverSent = false ∧ proof.isNone then
      pure (false, s.putLease (row.quarantined revision .unknown s.clock))
    else do
      env.checkResource row claim proof
      let outcome := (proof.map (·.fact.outcome)).getD .released
      pure (true, s.putLease
        (row.cleared revision outcome (env.releaseDigest claim pool proof) s.clock))

end

end EternalAI.Leases
