import EternalAI.Leases.Model
import EternalAI.Lib.Hex
import EternalAI.Lib.Keyed

/-!
# Messages between people and their assistants — rows

A person may send a colleague one text through the company's instant messenger, after
they have confirmed what they see. An assistant may answer a question with a text that
its owner has published and granted to the asker. Both leave by the same outbox.

The data is that of `app/ports/im_deliveries.py`, `app/ports/personal_agents.py` and
the tables `im_account_bindings`, `personal_agents`, `personal_agent_materials`,
`personal_agent_grants`, `im_inbox` and `im_deliveries`.

* Ids are texts. A document is hashed as the list of its members; the hash, the cards
  that the messenger renders and the settings of the store are `MsgEnv`.
-/

namespace EternalAI.Messaging

open Lib
open Dispatch (Str Time)
open Leases (Bytes)

/-! ## Vocabulary -/

/-- The codes of `IMDeliveryError`, `PersonalAgentError` and `IMContextError`. -/
inductive MsgError where
  | deliveryUnavailable | deliveryMappingUnavailable | deliveryRecipientUnavailable
  | deliveryNotFound | deliveryPreviewChanged | deliveryNotConfirmable | deliveryMappingChanged
  | deliveryIdempotencyConflict | deliveryExpiryInvalid | deliveryRecipientInvalid
  | deliveryMappingInvalid
  | agentUnavailable | agentNotFound | agentMappingChanged | agentExpiryInvalid
  | agentGranteeUnavailable | agentGrantNotFound | agentMaterialNotFound
  | agentReceiveUnavailable | agentRuntimeUnavailable | delegationExpired
  | sourceChanged | runtimeFailed
  deriving DecidableEq, Repr

inductive Status where
  | active | disabled
  deriving DecidableEq, Repr

inductive DeliveryState where
  | prepared | ready | sending | accepted | knownRejected | unknown | cancelled | expired
  deriving DecidableEq, Repr

inductive ReplySlot where
  | privateReply | groupStatus
  deriving DecidableEq, Repr

inductive InboxState where
  | queued | running | completed | refused | failed
  deriving DecidableEq, Repr

inductive TriggerKind where
  | directMessage | mention
  deriving DecidableEq, Repr

inductive ConversationKind where
  | privateChat | group
  deriving DecidableEq, Repr

inductive ResultState where
  | accepted | knownRejected | unknown
  deriving DecidableEq, Repr

def ResultState.delivery : ResultState → DeliveryState
  | .accepted => .accepted
  | .knownRejected => .knownRejected
  | .unknown => .unknown

structure DeliveryResult where
  state : ResultState
  remoteMessageId : Option Str
  resultCode : Str

/-- `DeliveryMessage`. -/
structure Message where
  (provider imInstanceId realmId senderBotId targetConversationRef cardContent : Str)
  kind : ReplySlot
  deriving DecidableEq

structure Principal where
  (tenantId aiUserId : Str)
  directoryUserId : Option Str
  displayName : Str

/-! ## Rows -/

/-- A row of `im_account_bindings`, which is also `DeliveryBinding`. -/
structure Binding where
  (bindingId tenantId aiUserId directoryUserId provider imInstanceId realmId imUserId : Str)
  loginSubject : Str
  status : Status
  deriving DecidableEq

def Binding.realm (b : Binding) : Str × Str × Str := (b.provider, b.imInstanceId, b.realmId)

/-- `PersonalAgent`. -/
structure Agent where
  (agentId tenantId ownerBindingId : Str)
  ownerBindingVersion : Bytes
  (provider imInstanceId realmId botUserId displayName : Str)
  status : Status
  deriving DecidableEq

def Agent.realm (a : Agent) : Str × Str × Str := (a.provider, a.imInstanceId, a.realmId)

structure Material where
  agentId : Str
  version : Nat
  (title body : Str)
  contentSha256 : Bytes
  expiresAt : Time
  withdrawnAt : Option Time
  deriving DecidableEq

def Material.key (material : Material) : Str × Nat := (material.agentId, material.version)

structure Grant where
  (grantId agentId : Str)
  materialVersion : Nat
  granteeBindingId : Str
  granteeBindingVersion : Bytes
  expiresAt : Time
  revokedAt : Option Time
  deriving DecidableEq

/-- `InboundEvent`. -/
structure Event where
  (provider imInstanceId realmId targetBotId sourceMessageId : Str)
  triggerKind : TriggerKind
  (senderId conversationRef : Str)
  conversationKind : ConversationKind
  payloadFingerprint : Bytes
  deriving DecidableEq

def Event.realm (e : Event) : Str × Str × Str := (e.provider, e.imInstanceId, e.realmId)

/-- What an inbound event is told apart by, `_EVENT_KEY`. -/
structure EventKey where
  (tenantId provider imInstanceId realmId targetBotId sourceMessageId : Str)
  triggerKind : TriggerKind
  deriving DecidableEq

/-- A row of `im_inbox`. -/
structure Inbox where
  inboxId : Str
  key : EventKey
  agentId : Str
  payloadFingerprint : Bytes
  actorBindingId : Str
  actorBindingVersion : Bytes
  conversationRef : Str
  conversationKind : ConversationKind
  receivedAt : Time
  queueJobId : Nat
  (grantId delegateAgentId : Option Str)
  state : InboxState
  resultCode : Option Str
  deriving DecidableEq

/-- A row of `im_deliveries`, which is also `DeliveryRecord`. -/
structure Delivery where
  (deliveryId tenantId initiatorAiUserId : Str)
  (recipientAiUserId recipientBindingId : Option Str)
  recipientMappingVersion : Option Bytes
  (provider imInstanceId realmId senderBotId targetConversationRef cardContent note : Str)
  confirmationSha256 : Option Bytes
  idempotencyKey : Str
  state : DeliveryState
  (confirmedAt sendExpiresAt : Option Time)
  queueJobId : Option Nat
  (sendAttemptId remoteMessageId : Option Str)
  acceptedAt : Option Time
  (resultCode originInboxId : Option Str)
  replySlot : Option ReplySlot
  deriving DecidableEq

def Delivery.realm (d : Delivery) : Str × Str × Str := (d.provider, d.imInstanceId, d.realmId)

def Delivery.request (d : Delivery) : Str × Str × Str :=
  (d.tenantId, d.initiatorAiUserId, d.idempotencyKey)

/-- All rows, the clock, and the number of the last queue job. -/
structure State where
  clock : Time
  bindings : Keyed Binding.bindingId
  agents : Keyed Agent.agentId
  materials : Keyed Material.key
  grants : Keyed Grant.grantId
  inbox : Keyed Inbox.inboxId
  deliveries : Keyed Delivery.deliveryId
  jobs : Nat

structure MsgEnv where
  /-- SHA-256 of a document in canonical form. -/
  digest : List (String × Str) → Bytes
  /-- SHA-256 of a text. -/
  textDigest : Str → Bytes
  isoformat : Time → Str
  /-- Where the deliveries of people go. -/
  realm : Str × Str × Str
  /-- The people that may be written to. -/
  recipients : List Str
  /-- `prepare_private_card`: the delivery, the sender's name, the recipient and the note. -/
  privateCard : Str → Str → Str → Str → Option Message
  /-- `prepare_agent_reply`: the delivery, the bot, the recipient and the text. -/
  agentReply : Str → Str → Str → Str → Message
  /-- `prepare_group_status`: the delivery, the bot, the conversation and the delegate. -/
  groupStatus : Str → Str → Str → Option Str → Message

/-- `one_or_none`: several rows are an error. -/
def oneOrNone {α : Type} (e : MsgError) : List α → Except MsgError (Option α)
  | [] => .ok none
  | [x] => .ok (some x)
  | _ :: _ :: _ => .error e

def one {α : Type} (e : MsgError) : Option α → Except MsgError α
  | some x => .ok x
  | none => .error e

/-! ## Digests -/

def Status.text : Status → Str
  | .active => "active".toList
  | .disabled => "disabled".toList

def Binding.document (b : Binding) : List (String × Str) :=
  [("binding_id", b.bindingId), ("tenant_id", b.tenantId), ("ai_user_id", b.aiUserId),
    ("directory_user_id", b.directoryUserId), ("provider", b.provider),
    ("im_instance_id", b.imInstanceId), ("realm_id", b.realmId), ("im_user_id", b.imUserId),
    ("login_subject", b.loginSubject), ("status", b.status.text)]

def MsgEnv.version (env : MsgEnv) (b : Binding) : Bytes := env.digest b.document

section

variable (env : MsgEnv) (d : Delivery) (initiator recipient : Binding)

/-- What `confirmation_digest` digests. -/
def MsgEnv.confirmationDocument : List (String × Str) :=
  [("delivery_id", d.deliveryId), ("tenant_id", d.tenantId),
    ("initiator", d.initiatorAiUserId), ("initiator_binding", initiator.bindingId),
    ("initiator_mapping", hex (env.version initiator)),
    ("recipient", d.recipientAiUserId.getD []), ("recipient_binding", recipient.bindingId),
    ("recipient_mapping", hex (env.version recipient)), ("provider", d.provider),
    ("instance", d.imInstanceId), ("realm", d.realmId), ("bot", d.senderBotId),
    ("conversation", d.targetConversationRef), ("content", d.cardContent), ("note", d.note),
    ("send_expires_at", (d.sendExpiresAt.map env.isoformat).getD [])]

def MsgEnv.confirmationDigest : Bytes := env.digest (env.confirmationDocument d initiator recipient)

end

end EternalAI.Messaging
