import EternalAI.Dispatch.Model
import EternalAI.Lib.Except
import EternalAI.Lib.Table

/-!
# Browser leases — bindings, claims and rows

The data of `app/ports/browser_store.py`, of `app/ports/credential_vault.py` and
of the table `browser_binding_leases`: who holds a browser resource for a
binding, under which epoch and revision, and how far its acquisition has got.

Keys of bindings, capacity limits and the provider pools are configuration. The
cipher, the proof context and the provider's verifier are given as functions;
the answers of the verifier and of the authority ports may differ from call to
call.

* `Lease` — a row of the table.
* `Claim` — what a holder has in hand.
* `Lease.matches` — `_matches`: the row is the one of the claim.
-/

namespace EternalAI.Leases

open Lib
open Dispatch (Str Time)

abbrev Bytes := List UInt8

/-! ## Vocabulary -/

inductive TargetSystem where
  | oa | u8 | hikvisionIvms
  deriving DecidableEq, Repr

inductive LeaseState where
  | released | held | quarantined
  deriving DecidableEq, Repr

inductive AcquisitionPhase where
  | reservationOnly | acquiring | acquired | unknown
  deriving DecidableEq, Repr

inductive ProviderOutcome where
  | acquired | released | terminated
  deriving DecidableEq, Repr

/-- `BrowserLeaseError`, by its code; `authority` is whatever an authority port
raises, `storage` whatever the database does. -/
inductive LeaseError where
  | providerPoolUnknown | leaseRevisionExhausted | leaseTtlInvalid | leaseStale | bindingStale
  | providerAuthorityUnavailable | cleanupClaimNotBusiness | authorityUnavailable
  | bindingMissing | capacityUnconfigured | authExpired | bindingBusy | capacityExhausted
  | leaseExpired | acquisitionAlreadyStarted | acquisitionPhaseInvalid | providerProofInvalid
  | providerProofMismatch | subjectAuthorityUnavailable | resourceUnavailable
  | cleanupAuthorityUnavailable | providerReleaseUnproven | resourceInvalid
  | resourceKeyUnavailable | resourceIntegrityFailed | authority | storage
  deriving DecidableEq, Repr

def maxBrowserRevision : Nat := 9007199254740991

/-! ## Identities -/

/-- `BrowserBindingKey`. -/
structure BindingKey where
  (tenantId aiUserId : Str)
  targetSystem : TargetSystem
  bindingId : Str
  deriving DecidableEq

/-- `BrowserOwner`. -/
structure Owner where
  (tenantId userId sessionId : Str)
  deriving DecidableEq

/-- `BrowserAuthFact`: a numeric revision or the run of a verified session, and
not both. -/
structure AuthFact where
  owner : Owner
  authorizationRevision : Option Nat
  authorizationRunId : Option Str
  fingerprint : Bytes
  expiresAt : Time
  mode : authorizationRevision.isSome ≠ authorizationRunId.isSome
  deriving DecidableEq

/-- `BrowserBindingFact`. -/
structure BindingFact where
  key : BindingKey
  bindingRevision : Nat
  subjectDigest : Bytes
  deriving DecidableEq

/-- The binding of a claim: the verified fact, or `BrowserLeaseBindingSnapshot`,
which is good for cleanup only. -/
inductive ClaimBinding where
  | fact (binding : BindingFact)
  | snapshot (key : BindingKey) (bindingRevision : Nat)
  deriving DecidableEq

def ClaimBinding.key : ClaimBinding → BindingKey
  | .fact binding => binding.key
  | .snapshot key _ => key

def ClaimBinding.bindingRevision : ClaimBinding → Nat
  | .fact binding => binding.bindingRevision
  | .snapshot _ revision => revision

/-- `BrowserLeaseClaim`. -/
structure Claim where
  auth : AuthFact
  binding : ClaimBinding
  (leaseEpoch leaseRevision : Nat)
  (holderId operationId providerKey : Str)
  deadline : Time
  deriving DecidableEq

/-! ## Rows -/

/-- `ResourceEnvelope`: the four resource columns, null or not together. -/
structure ResourceEnvelope where
  (cipherVersion keyId : Str)
  (nonce encryptedPayload : Bytes)
  deriving DecidableEq

/-- A row of `browser_binding_leases`. -/
structure Lease where
  key : BindingKey
  (leaseEpoch leaseRevision : Nat)
  (holderId holderSessionId : Option Str)
  (bindingRevision authorizationRevision : Option Nat)
  authorizationRunId : Option Str
  authSessionFingerprint : Option Bytes
  (authExpiresAt deadline : Option Time)
  state : LeaseState
  acquisitionPhase : AcquisitionPhase
  acquisitionSendStarted : Bool
  (acquisitionOperationId providerKey : Option Str)
  capacityHeld : Bool
  resource : Option ResourceEnvelope
  resourceProofDigest : Option Bytes
  releaseOutcome : Option ProviderOutcome
  releaseProofDigest : Option Bytes
  updatedAt : Time
  deriving DecidableEq

def Lease.blank (key : BindingKey) (now : Time) : Lease where
  key := key
  leaseEpoch := 0
  leaseRevision := 0
  holderId := none
  holderSessionId := none
  bindingRevision := none
  authorizationRevision := none
  authorizationRunId := none
  authSessionFingerprint := none
  authExpiresAt := none
  deadline := none
  state := .released
  acquisitionPhase := .reservationOnly
  acquisitionSendStarted := false
  acquisitionOperationId := none
  providerKey := none
  capacityHeld := false
  resource := none
  resourceProofDigest := none
  releaseOutcome := none
  releaseProofDigest := none
  updatedAt := now

section

variable (row : Lease) (claim : Claim)

/-- The row belongs to the claim: its owner, epoch, holder, authority, operation
and provider are those of the claim, and the lease is not released. -/
def Lease.ownedBy : Prop :=
  row.key = claim.binding.key ∧ row.leaseEpoch = claim.leaseEpoch ∧
  row.holderId = some claim.holderId ∧
  row.holderSessionId = some claim.auth.owner.sessionId ∧
  row.bindingRevision = some claim.binding.bindingRevision ∧
  row.authorizationRevision = claim.auth.authorizationRevision ∧
  row.authorizationRunId = claim.auth.authorizationRunId ∧
  row.authSessionFingerprint = some claim.auth.fingerprint ∧
  row.authExpiresAt = some claim.auth.expiresAt ∧
  row.acquisitionOperationId = some claim.operationId ∧
  row.providerKey = some claim.providerKey ∧
  row.capacityHeld = true ∧ row.state ≠ .released

/-- The row is at the revision and deadline of the claim, and held. -/
def Lease.current : Prop :=
  row.leaseRevision = claim.leaseRevision ∧ row.deadline = some claim.deadline ∧
  row.state = .held

instance : Decidable (row.ownedBy claim) :=
  inferInstanceAs (Decidable (_ ∧ _))

instance : Decidable (row.current claim) :=
  inferInstanceAs (Decidable (_ ∧ _))

def Lease.matches (business : Bool) : Except LeaseError Unit :=
  ensure (row.ownedBy claim ∧ (business = true → row.current claim)) .leaseStale

end

/-! ## Configuration and authorities -/

/-- `BrowserProviderPool`. -/
structure Pool where
  providerKey : Str
  aliases : List Str
  manifestDigest : Bytes
  deriving DecidableEq

/-- `BrowserProviderPoolRegistry`: no name leads to two pools. -/
structure Registry where
  pools : List Pool
  unique : (pools.flatMap fun pool => pool.providerKey :: pool.aliases).Nodup

def Registry.resolve (registry : Registry) (name : Str) : Except LeaseError Pool :=
  match registry.pools.find? fun pool => name ∈ pool.providerKey :: pool.aliases with
  | none => .error .providerPoolUnknown
  | some pool => .ok pool

/-- `BrowserProviderExpectation`. -/
structure Expectation where
  claim : Claim
  (challenge manifestDigest : Bytes)
  resourceRef : Option Bytes

/-- `BrowserProviderFact`. -/
structure ProviderFact where
  (providerKey operationId holderId : Str)
  leaseEpoch : Nat
  (challenge manifestDigest resourceRef : Bytes)
  outcome : ProviderOutcome
  deriving DecidableEq

inductive Purpose where
  | acquireProof | releaseProof | neverSent
  deriving DecidableEq, Repr

/-- What the store is configured with: the registry (if any), the limits by
provider and tenant, the proof context, the cipher and the verifier. A reading
of the verifier or a nonce is numbered, since the next one may differ. -/
structure LeaseEnv where
  registry : Option Registry
  limits : Str → Option Str → Option Nat
  challenge : Claim → Bytes → Bytes
  digest : Purpose → Bytes → Bytes
  encrypt : Nat → Claim → Bytes → Except LeaseError ResourceEnvelope
  decrypt : Claim → ResourceEnvelope → Except LeaseError Bytes
  verify : Nat → Expectation → Bytes → Except LeaseError ProviderFact

def LeaseEnv.pool (env : LeaseEnv) (name : Str) : Except LeaseError Pool :=
  match env.registry with
  | none => .error .providerAuthorityUnavailable
  | some registry => registry.resolve name

/-- The part of `_verified` that compares a fact with what is expected. -/
def ProviderFact.meets (fact : ProviderFact) (expected : Expectation) : Prop :=
  fact.providerKey = expected.claim.providerKey ∧
  fact.operationId = expected.claim.operationId ∧ fact.holderId = expected.claim.holderId ∧
  fact.leaseEpoch = expected.claim.leaseEpoch ∧ fact.challenge = expected.challenge ∧
  fact.manifestDigest = expected.manifestDigest ∧ fact.resourceRef ≠ [] ∧
  (∀ resource ∈ expected.resourceRef, fact.resourceRef = resource)

instance (fact : ProviderFact) (expected : Expectation) : Decidable (fact.meets expected) :=
  inferInstanceAs (Decidable (_ ∧ _))

/-- What the verifier is asked about a claim. -/
def LeaseEnv.expectation (env : LeaseEnv) (claim : Claim) (pool : Pool)
    (resource : Option Bytes) : Expectation :=
  ⟨claim, env.challenge claim pool.manifestDigest, pool.manifestDigest, resource⟩

def LeaseEnv.verified (env : LeaseEnv) (reading : Nat) (claim : Claim) (pool : Pool)
    (resource : Option Bytes) (evidence : Bytes) : Except LeaseError ProviderFact := do
  ensure (evidence ≠ []) .providerProofInvalid
  let fact ← env.verify reading (env.expectation claim pool resource) evidence
  ensure (fact.meets (env.expectation claim pool resource)) .providerProofMismatch
  pure fact

def LeaseEnv.resource (env : LeaseEnv) (row : Lease) (claim : Claim) :
    Except LeaseError (Option Bytes) :=
  match row.resource with
  | none => .ok none
  | some envelope => do
    let resource ← env.decrypt claim envelope
    pure (some resource)

/-! ## The state -/

inductive BindingState where
  | active | other
  deriving DecidableEq, Repr

/-- The columns of `oa_session_credentials` that are read. -/
structure Credential where
  bindingRevision : Nat
  bindingState : BindingState
  subjectDigest : Bytes
  revokedAt : Option Time
  deriving DecidableEq

structure State where
  clock : Time
  credentials : BindingKey → Option Credential
  leases : List Lease

def State.lease (s : State) (key : BindingKey) : Option Lease := lookup Lease.key key s.leases

def State.putLease (s : State) (row : Lease) : State :=
  { s with leases := put Lease.key row s.leases }

/-- The leases that count against a provider, of all tenants or of one. -/
def State.counted (s : State) (providerKey : Str) (tenant : Option Str) : Nat :=
  s.leases.countP fun row => row.providerKey = some providerKey ∧ row.capacityHeld = true ∧
    ∀ tenantId ∈ tenant, row.key.tenantId = tenantId

end EternalAI.Leases
