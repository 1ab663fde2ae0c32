import EternalAI.Messaging.Deliveries

/-!
# Messages — what assistants are given and what they receive

The statements of `PostgreSQLPersonalAgentStore` for what an owner publishes, grants,
revokes and withdraws, and for the events that come in. The rows of agents and account
bindings are read here and written by none.
-/

namespace EternalAI.Messaging

open Lib
open Dispatch (Str Time)
open Leases (Bytes)

variable (env : MsgEnv)

section

variable (s : State) (principal : Principal) (agentId : Str)

/-- `_binding`. -/
def State.bindingOf (bindingId : Str) : Except MsgError Binding :=
  one .agentUnavailable (s.bindings.find bindingId)

/-! ## The owner's side -/

def State.owned : Except MsgError Agent := do
  let agent ← one .agentNotFound (s.agents.find agentId)
  let owner ← one .agentNotFound (s.bindings.find agent.ownerBindingId)
  ensure (agent.tenantId = principal.tenantId ∧ owner.tenantId = agent.tenantId ∧
    owner.aiUserId = principal.aiUserId ∧ some owner.directoryUserId = principal.directoryUserId ∧
    owner.status = .active ∧ principal.tenantId = "default".toList) .agentNotFound
  ensure (agent.status = .active ∧ env.version owner = agent.ownerBindingVersion ∧
    owner.realm = agent.realm) .agentMappingChanged
  pure agent

/-- `COALESCE(max(version),0)`. -/
def State.lastVersion : Nat :=
  ((s.materials.rows.filter fun m => m.agentId = agentId).map Material.version).foldl max 0

def State.publish (title body : Str) (expiresAt : Time) : Except MsgError (Material × State) := do
  let _ ← s.owned env principal agentId
  ensure (s.clock < expiresAt) .agentExpiryInvalid
  let material : Material :=
    { agentId := agentId, version := s.lastVersion agentId + 1, title := title, body := body
      contentSha256 := env.textDigest body, expiresAt := expiresAt, withdrawnAt := none }
  let materials ← s.materials.insert material .agentUnavailable
  pure (material, { s with materials := materials })

def Grant.replaced (granteeBindingId : Str) (now : Time) (g : Grant) : Grant :=
  if g.agentId = agentId ∧ g.granteeBindingId = granteeBindingId ∧ g.revokedAt = none then
    { g with revokedAt := some now }
  else g

theorem Grant.grantId_replaced {agentId granteeBindingId : Str} {now : Time} (g : Grant) :
    (g.replaced agentId granteeBindingId now).grantId = g.grantId := by
  unfold Grant.replaced
  split <;> rfl

def State.grant (s : State) (principal : Principal) (agentId : Str) (materialVersion : Nat)
    (grantee : Str) (expiresAt : Time) (grantId : Str) : Except MsgError (Grant × State) := do
  let agent ← s.owned env principal agentId
  let material ← one .agentExpiryInvalid (s.materials.find (agentId, materialVersion))
  ensure (material.withdrawnAt = none ∧ s.clock < expiresAt ∧ expiresAt ≤ material.expiresAt)
    .agentExpiryInvalid
  let found ← s.account .agentUnavailable agent.tenantId grantee agent.realm
  let grantee ← one .agentGranteeUnavailable found
  let grants := s.grants.map (Grant.replaced agentId grantee.bindingId s.clock)
    Grant.grantId_replaced
  let grant : Grant :=
    { grantId := grantId, agentId := agentId, materialVersion := materialVersion
      granteeBindingId := grantee.bindingId, granteeBindingVersion := env.version grantee
      expiresAt := expiresAt, revokedAt := none }
  let grants ← grants.insert grant .agentUnavailable
  pure (grant, { s with grants := grants })

/-- `COALESCE(revoked_at,clock_timestamp())`. -/
def Grant.revoked (now : Time) (g : Grant) : Grant :=
  { g with revokedAt := some (g.revokedAt.getD now) }

def State.revoke (grantId : Str) : Except MsgError (Unit × State) := do
  let _ ← s.owned env principal agentId
  let grant ← one .agentGrantNotFound (s.grants.find grantId)
  ensure (grant.agentId = agentId) .agentGrantNotFound
  pure ((), { s with grants := s.grants.update grantId (Grant.revoked s.clock) fun _ => rfl })

/-- `COALESCE(withdrawn_at,clock_timestamp())`. -/
def Material.withdrawn (now : Time) (m : Material) : Material :=
  { m with withdrawnAt := some (m.withdrawnAt.getD now) }

def State.withdraw (version : Nat) : Except MsgError (Unit × State) := do
  let _ ← s.owned env principal agentId
  let _ ← one .agentMaterialNotFound (s.materials.find (agentId, version))
  pure ((), { s with
    materials := s.materials.update (agentId, version) (Material.withdrawn s.clock) fun _ => rfl })

end

/-! ## Inbound events -/

inductive ReceiveCode where
  | queued | duplicate | conflict | targetUnavailable | actorUnavailable | notDelegationSource
  deriving DecidableEq, Repr

structure ReceiveResult where
  inboxId : Option Str
  resultCode : ReceiveCode
  deriving DecidableEq

def State.agent (s : State) (agentId : Str) : Except MsgError Agent := do
  let agent ← one .agentNotFound (s.agents.find agentId)
  ensure (agent.tenantId = "default".toList) .agentNotFound
  pure agent

section

variable (s : State) (agent : Agent) (event : Event) (actor : Binding)

/-- `_event_params`, as far as they are a key. -/
def Event.key (agent : Agent) : EventKey where
  tenantId := agent.tenantId
  provider := event.provider
  imInstanceId := event.imInstanceId
  realmId := event.realmId
  targetBotId := event.targetBotId
  sourceMessageId := event.sourceMessageId
  triggerKind := event.triggerKind

def State.existing : Option ReceiveResult :=
  (s.inbox.rows.find? fun row => row.key = event.key agent).map fun row =>
    ⟨some row.inboxId,
      if row.payloadFingerprint = event.payloadFingerprint then .duplicate else .conflict⟩

def State.inboundActor : Except MsgError (Option Binding) :=
  oneOrNone .agentUnavailable (s.bindings.rows.filter fun b =>
    b.tenantId = agent.tenantId ∧ b.realm = event.realm ∧ b.imUserId = event.senderId ∧
      b.status = .active)

/-- `_agent_identity_valid`. -/
def Agent.identityValid (owner : Binding) : Bool :=
  agent.tenantId = owner.tenantId ∧ owner.tenantId = "default".toList ∧
    agent.status = .active ∧ owner.status = .active ∧
    env.version owner = agent.ownerBindingVersion ∧ agent.realm = owner.realm

/-- The two agents of a delegation: the actor's own, and the other. -/
def State.delegationPair (a b : Agent) : Except MsgError (Option (Agent × Agent)) :=
  if (a.ownerBindingId = actor.bindingId) ↔ (b.ownerBindingId = actor.bindingId) then .ok none
  else do
    let aOwner ← s.bindingOf a.ownerBindingId
    if a.identityValid env aOwner then do
      let bOwner ← s.bindingOf b.ownerBindingId
      if b.identityValid env bOwner then
        pure (some (if a.ownerBindingId = actor.bindingId then (a, b) else (b, a)))
      else pure none
    else pure none

def State.delegationAgents (bots : List Str) : Except MsgError (Option (Agent × Agent)) :=
  match s.agents.rows.filter fun a => a.tenantId = actor.tenantId ∧ a.realm = actor.realm ∧
    a.status = .active ∧ a.botUserId ∈ bots with
  | [a, b] => s.delegationPair env actor a b
  | _ => .ok none

/-- The target of a delegation may be asked. -/
def State.delegates : Option Str → Except MsgError Bool
  | none => .ok true
  | some targetId => do
    let target ← one .agentUnavailable (s.agents.find targetId)
    let owner ← s.bindingOf agent.ownerBindingId
    let targetOwner ← s.bindingOf target.ownerBindingId
    pure (agent.ownerBindingId = actor.bindingId ∧ target.agentId ≠ agent.agentId ∧
      agent.identityValid env owner ∧ target.identityValid env targetOwner ∧
      target.tenantId = actor.tenantId ∧ target.realm = actor.realm)

def State.materialOf (g : Grant) : Option Material :=
  s.materials.find (g.agentId, g.materialVersion)

def State.inForce (g : Grant) : Bool :=
  g.revokedAt = none ∧ s.clock < g.expiresAt ∧
    (s.materialOf g).any fun m => m.withdrawnAt = none ∧ s.clock < m.expiresAt

def State.currentGrant (agentId : Str) (actor : Binding) : Except MsgError (Option Str) := do
  let found ← oneOrNone .agentUnavailable (s.grants.rows.filter fun g =>
    g.agentId = agentId ∧ g.granteeBindingId = actor.bindingId ∧
      g.granteeBindingVersion = env.version actor ∧ s.inForce g)
  pure (found.map Grant.grantId)

def newInbox (inboxId : Str) (agent : Agent) (event : Event) (actor : Binding)
    (delegateAgentId grantId : Option Str) (now : Time) (job : Nat) : Inbox where
  inboxId := inboxId
  key := event.key agent
  agentId := agent.agentId
  payloadFingerprint := event.payloadFingerprint
  actorBindingId := actor.bindingId
  actorBindingVersion := env.version actor
  conversationRef := event.conversationRef
  conversationKind := event.conversationKind
  receivedAt := now
  queueJobId := job
  grantId := grantId
  delegateAgentId := delegateAgentId
  state := .queued
  resultCode := none

/-- The insert at the end of `accept`, under the keys of the table. -/
def State.insertInbox (inboxId : Str) (agent : Agent) (event : Event) (actor : Binding)
    (delegateAgentId grantId : Option Str) : Except MsgError (ReceiveResult × State) := do
  ensure (s.inbox.rows.all fun row => row.key ≠ event.key agent) .agentUnavailable
  let row := newInbox env inboxId agent event actor delegateAgentId grantId s.clock (s.jobs + 1)
  let inbox ← s.inbox.insert row .agentUnavailable
  pure (⟨some inboxId, .queued⟩, { s with inbox := inbox, jobs := s.jobs + 1 })

end

end EternalAI.Messaging
