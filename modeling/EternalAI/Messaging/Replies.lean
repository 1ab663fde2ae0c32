import EternalAI.Messaging.Agents

/-!
# Messages — the answers of assistants

The statements of `PostgreSQLPersonalAgentStore` from an accepted event to the reply in
the outbox, and the claim of that reply.

* `State.context` — an event with everyone it is about, as they are now.
* `Context.identitiesValid` — they are who they were when the event came in.
* `State.authorized` — the text that may be answered from, if there is one now.
* `State.claimReply` — the last decision about a reply, before it is sent.

A caller holds a context that it has read earlier; of that one, only the ids count.
-/

namespace EternalAI.Messaging

open Lib
open Dispatch (Str Time)
open Leases (Bytes)

variable (env : MsgEnv)

/-! ## Contexts -/

/-- `DelegationContext`. -/
structure Delegation where
  targetAgent : Agent
  targetOwner : Binding

/-- `InboxContext`. -/
structure Context where
  inboxId : Str
  agent : Agent
  (actor owner : Binding)
  actorBindingVersion : Bytes
  event : Event
  grantId : Option Str
  state : InboxState
  delegation : Option Delegation

section

variable (s : State) (c : Context)

def Context.executionAgent : Agent := (c.delegation.map Delegation.targetAgent).getD c.agent

def Context.executionOwner : Binding :=
  (c.delegation.map Delegation.targetOwner).getD c.owner

def State.delegation : Option Str → Except MsgError (Option Delegation)
  | none => .ok none
  | some targetId => do
    let target ← one .agentUnavailable (s.agents.find targetId)
    let owner ← s.bindingOf target.ownerBindingId
    pure (some ⟨target, owner⟩)

/-- The event of a row, with the sender as the actor's mapping has it now. -/
def Inbox.event (row : Inbox) (actor : Binding) : Event where
  provider := row.key.provider
  imInstanceId := row.key.imInstanceId
  realmId := row.key.realmId
  targetBotId := row.key.targetBotId
  sourceMessageId := row.key.sourceMessageId
  triggerKind := row.key.triggerKind
  senderId := actor.imUserId
  conversationRef := row.conversationRef
  conversationKind := row.conversationKind
  payloadFingerprint := row.payloadFingerprint

def State.context (inboxId : Str) : Except MsgError Context := do
  let row ← one .agentUnavailable (s.inbox.find inboxId)
  let agent ← one .agentUnavailable (s.agents.find row.agentId)
  let actor ← s.bindingOf row.actorBindingId
  let owner ← s.bindingOf agent.ownerBindingId
  let delegation ← s.delegation row.delegateAgentId
  pure ⟨inboxId, agent, actor, owner, row.actorBindingVersion, row.event actor, row.grantId,
    row.state, delegation⟩

/-- The delegation part of `_identities_valid`. -/
def Context.delegationValid : Bool :=
  c.delegation.isNone ∨ c.agent.ownerBindingId = c.actor.bindingId ∧
    c.executionAgent.agentId ≠ c.agent.agentId ∧
    c.executionAgent.identityValid env c.executionOwner ∧
    c.executionAgent.realm = c.agent.realm

def Context.identitiesValid : Bool :=
  c.agent.tenantId = c.actor.tenantId ∧ c.actor.tenantId = c.owner.tenantId ∧
    c.owner.tenantId = "default".toList ∧
    c.agent.status = .active ∧ c.actor.status = .active ∧ c.owner.status = .active ∧
    env.version c.actor = c.actorBindingVersion ∧
    env.version c.owner = c.agent.ownerBindingVersion ∧
    c.agent.realm = c.actor.realm ∧ c.actor.realm = c.owner.realm ∧
    c.event.realm = c.agent.realm ∧ c.event.targetBotId = c.agent.botUserId ∧
    c.delegationValid env

/-! ## Answering -/

def Inbox.moved (state : InboxState) (code : Option Str) (row : Inbox) : Inbox :=
  { row with state := state, resultCode := code }

def State.setInbox (inboxId : Str) (state : InboxState) (code : Option Str) : State :=
  { s with inbox := s.inbox.update inboxId (Inbox.moved state code) fun _ => rfl }

/-- `claim_inbox` on a queued event. -/
def State.startInbox (row : Inbox) : Except MsgError (Option Context × State) := do
  let running := s.setInbox row.inboxId .running row.resultCode
  let context ← running.context row.inboxId
  if context.identitiesValid env then pure (some context, running)
  else pure (none, running.setInbox row.inboxId .failed (some "mapping_changed".toList))

def State.claimInbox (inboxId : Str) : Except MsgError (Option Context × State) :=
  match s.inbox.find inboxId with
  | none => .ok (none, s)
  | some row => if row.state = .queued then s.startInbox env row else .ok (none, s)

def State.grantOf : Option Str → Except MsgError (Option Grant)
  | none => .ok none
  | some grantId => do
    let grant ← one .agentUnavailable (s.grants.find grantId)
    pure (some grant)

/-- `_locked`: the context as it is now, and the grant of the one that was read. -/
def State.locked : Except MsgError (Context × Option Grant) := do
  let grant ← s.grantOf c.grantId
  let current ← s.context c.inboxId
  pure (current, grant)

/-- `AuthorizedMaterial`. -/
structure Authorized where
  grantId : Str
  material : Material

/-- `_authorized`, with a grant. -/
def State.authorizedBy (g : Grant) : Option Authorized :=
  if g.agentId = c.executionAgent.agentId ∧ g.granteeBindingId = c.actor.bindingId ∧
      g.granteeBindingVersion = env.version c.actor ∧ g.revokedAt = none ∧
      s.clock < g.expiresAt then
    ((s.materials.find (c.executionAgent.agentId, g.materialVersion)).filter fun m =>
      m.withdrawnAt = none ∧ s.clock < m.expiresAt).map (Authorized.mk g.grantId)
  else none

end

section

variable (s : State) (c : Context) (deliveryId : Str)

def State.authorized (grant : Option Grant) : Option Authorized :=
  if c.identitiesValid env then grant.bind (s.authorizedBy env c) else none

/-- `_check_deadline`: a delegation ends after 300 seconds. -/
def State.checkDeadline : Except MsgError Unit :=
  if c.delegation.isSome then do
    let row ← one .agentUnavailable (s.inbox.find c.inboxId)
    ensure (s.clock < row.receivedAt + 300000000) .delegationExpired
  else .ok ()

def State.material : Except MsgError (Option Authorized) := do
  let (current, grant) ← s.locked c
  if current.state = .running then do
    s.checkDeadline current
    pure (s.authorized env current grant)
  else pure none

def newReply (key : Str) (c : Context) (message : Message) (slot : ReplySlot) (job : Nat) :
    Delivery where
  deliveryId := deliveryId
  tenantId := c.agent.tenantId
  initiatorAiUserId := c.actor.aiUserId
  recipientAiUserId := if slot = .privateReply then some c.actor.aiUserId else none
  recipientBindingId := if slot = .privateReply then some c.actor.bindingId else none
  recipientMappingVersion := if slot = .privateReply then some (env.version c.actor) else none
  provider := message.provider
  imInstanceId := message.imInstanceId
  realmId := message.realmId
  senderBotId := message.senderBotId
  targetConversationRef := message.targetConversationRef
  cardContent := message.cardContent
  note := []
  confirmationSha256 := none
  idempotencyKey := key
  state := .ready
  confirmedAt := none
  sendExpiresAt := none
  queueJobId := some job
  sendAttemptId := none
  remoteMessageId := none
  acceptedAt := none
  resultCode := none
  originInboxId := some c.inboxId
  replySlot := some slot

/-- `_enqueue`, under the keys of the table. -/
def State.enqueue (key : Str) (message : Message) (slot : ReplySlot) : Except MsgError State := do
  let row := newReply env deliveryId key c message slot (s.jobs + 1)
  ensure (s.deliveries.rows.all fun d => d.request ≠ row.request ∧
    (d.originInboxId, d.replySlot) ≠ (some c.inboxId, some slot)) .agentUnavailable
  let deliveries ← s.deliveries.insert row .agentUnavailable
  pure { s with deliveries := deliveries, jobs := s.jobs + 1 }

def State.enqueueStatus (key : Str) (message : Message) : Except MsgError (Unit × State) := do
  let (current, _) ← s.locked c
  if current.state = .running ∧ current.identitiesValid env then do
    let s' ← s.enqueue env current deliveryId key message .groupStatus
    pure ((), s')
  else pure ((), s)

/-- What is sent: the answer if there is one and it is allowed now. -/
def chosen (answer : Option Message) (authorized : Option Authorized) : Option Message :=
  if authorized.isSome then answer else none

/-- The end of `complete`, for a running event whose identities are valid. -/
def State.conclude (current : Context) (grant : Option Grant) (deliveryId key : Str)
    (answer : Option Message) (refusal : Message) (resultCode : Str) :
    Except MsgError (Unit × State) := do
  s.checkDeadline current
  let allowed := chosen answer (s.authorized env current grant)
  let s' ← s.enqueue env current deliveryId key (allowed.getD refusal) .privateReply
  pure ((), if allowed.isSome then s'.setInbox current.inboxId .completed (some resultCode)
    else s'.setInbox current.inboxId .refused (some "authorization_unavailable".toList))

def State.complete (key : Str) (answer : Option Message) (refusal : Message) (resultCode : Str) :
    Except MsgError (Unit × State) := do
  let (current, grant) ← s.locked c
  if current.state = .running then
    if current.identitiesValid env then
      s.conclude env current grant deliveryId key answer refusal resultCode
    else pure ((), s.setInbox current.inboxId .failed (some "mapping_changed".toList))
  else pure ((), s)

def Inbox.failedWith (code : Str) (row : Inbox) : Inbox :=
  if row.state = .queued ∨ row.state = .running then row.moved .failed (some code) else row

theorem Inbox.inboxId_failedWith {code : Str} (row : Inbox) :
    (row.failedWith code).inboxId = row.inboxId := by
  unfold Inbox.failedWith
  split <;> rfl

def State.fail (inboxId : Str) (code : Str) : Except MsgError (Unit × State) :=
  .ok ((), { s with
    inbox := s.inbox.update inboxId (Inbox.failedWith code) Inbox.inboxId_failedWith })

/-- `maintain_inbox`, where `dead` says which queue jobs are gone, ended or stalled. -/
def State.maintainInbox (dead : Nat → Bool) : Except MsgError (Unit × State) :=
  .ok ((), { s with
    inbox := s.inbox.map (fun row =>
      if dead row.queueJobId then row.failedWith "worker_interrupted".toList else row) fun row => by
        split
        · exact Inbox.inboxId_failedWith row
        · rfl })

/-! ## Claiming a reply -/

def State.replyContext : Except MsgError (Option Context) :=
  match s.deliveries.find deliveryId with
  | none => .ok none
  | some d =>
    match d.originInboxId with
    | none => .ok none
    | some inboxId => if d.state = .ready then (s.context inboxId).map some else .ok none

/-- The reply is still addressed to the people and the place it was made for. -/
def Delivery.addressed (d : Delivery) (current : Context) (refusal : Message) : Bool :=
  if d.replySlot = some .privateReply then
    d.realm = current.executionAgent.realm ∧ d.senderBotId = current.executionAgent.botUserId ∧
      d.targetConversationRef = refusal.targetConversationRef ∧
      d.recipientBindingId = some current.actor.bindingId ∧
      d.recipientAiUserId = some current.actor.aiUserId ∧
      d.recipientMappingVersion = some (env.version current.actor)
  else
    d.realm = current.agent.realm ∧ d.senderBotId = current.agent.botUserId ∧
      d.targetConversationRef = current.event.conversationRef

def Delivery.withContent (content : Str) (d : Delivery) : Delivery :=
  { d with cardContent := content }

/-- The answer is taken back: the event is refused, and the card says so. -/
def State.takeBack (inboxId deliveryId : Str) (refusal : Message) : State :=
  (s.setInbox inboxId .refused (some "authorization_unavailable".toList)).change deliveryId
    (Delivery.withContent refusal.cardContent) fun _ => rfl

/-- The end of `claim_reply`, for a reply that may go out. -/
def State.sendReply (current : Context) (grant : Option Grant) (d : Delivery) (refusal : Message)
    (attempt : Str) : Except MsgError (Option (Delivery × Message) × State) :=
  if d.replySlot = some .privateReply then
    if current.state = .completed then
      if (s.authorized env current grant).isSome then s.attempt .agentUnavailable d attempt
      else (s.takeBack current.inboxId d.deliveryId refusal).attempt .agentUnavailable
        (d.withContent refusal.cardContent) attempt
    else if current.state = .refused then s.attempt .agentUnavailable d attempt
    else .ok (none, s)
  else s.attempt .agentUnavailable d attempt

def State.claimReply (sourceValid : Bool) (refusal : Message) (attempt : Str) :
    Except MsgError (Option (Delivery × Message) × State) := do
  let (current, grant) ← s.locked c
  match s.deliveries.find deliveryId with
  | none => pure (none, s)
  | some d =>
    if d.originInboxId = some c.inboxId ∧ d.state = .ready then
      if sourceValid ∧ current.identitiesValid env ∧ d.addressed env current refusal then
        s.sendReply env current grant d refusal attempt
      else pure (none,
        s.change deliveryId (Delivery.cancelledFor "source_unavailable") fun _ => rfl)
    else pure (none, s)

end

end EternalAI.Messaging
