import EternalAI.Messaging.Model

/-!
# Messages — the transactions of the outbox

The statements of `PostgreSQLIMDeliveryStore`. A transaction locks the delivery it
decides about and is one step from the rows at that moment; it refuses, or returns what
is committed. The account mappings are read in it and written by none.

`origin_inbox_id IS NULL` tells a person's delivery from the reply of an assistant.
-/

namespace EternalAI.Messaging

open Lib
open Dispatch (Str Time)
open Leases (Bytes)

variable (env : MsgEnv)

/-! ## Mappings -/

def State.account (s : State) (e : MsgError) (tenant user : Str) (realm : Str × Str × Str) :
    Except MsgError (Option Binding) :=
  oneOrNone e (s.bindings.rows.filter fun b =>
    b.tenantId = tenant ∧ b.aiUserId = user ∧ b.realm = realm ∧ b.status = .active)

def State.binding (s : State) (tenant user : Str) (realm : Str × Str × Str) :
    Except MsgError (Option Binding) :=
  s.account .deliveryUnavailable tenant user realm

section

variable (s : State) (d : Delivery) (principal : Principal)

def State.initiator (realm : Str × Str × Str) : Except MsgError Binding := do
  ensure (principal.tenantId = "default".toList ∧
    principal.directoryUserId.any (· ≠ [])) .deliveryMappingUnavailable
  let found ← s.binding principal.tenantId principal.aiUserId realm
  let binding ← one .deliveryMappingUnavailable found
  ensure (some binding.directoryUserId = principal.directoryUserId) .deliveryMappingUnavailable
  pure binding

def State.recipient (tenant user : Str) (realm : Str × Str × Str) : Except MsgError Binding := do
  ensure (user ∈ env.recipients) .deliveryRecipientUnavailable
  let found ← s.binding tenant user realm
  one .deliveryRecipientUnavailable found

/-- `bindings`. -/
def State.bindingsOf (recipient : Str) : Except MsgError (Binding × Binding) := do
  let initiator ← s.initiator principal env.realm
  let recipient ← s.recipient env principal.tenantId recipient env.realm
  pure (initiator, recipient)

/-! ## Preparing, confirming and cancelling -/

/-- `_INITIATOR`. -/
def Delivery.initiatedBy : Bool :=
  d.originInboxId = none ∧ d.tenantId = principal.tenantId ∧
    d.initiatorAiUserId = principal.aiUserId

def Delivery.participant (now : Time) : Bool :=
  d.originInboxId = none ∧ d.tenantId = principal.tenantId ∧
    (d.initiatorAiUserId = principal.aiUserId ∨
      d.recipientAiUserId = some principal.aiUserId ∧ d.confirmedAt.isSome ∧
      d.state ≠ .cancelled ∧ d.state ≠ .expired ∧
      (d.state ≠ .ready ∨ d.sendExpiresAt.any (now < ·)))

def State.findRequest (key : Str) : Option Delivery :=
  s.deliveries.rows.find? fun d => d.initiatedBy principal ∧ d.idempotencyKey = key

/-- `get`, for the row that the view is made of. -/
def State.get (deliveryId : Str) : Except MsgError Delivery := do
  let d ← one .deliveryNotFound (s.deliveries.find deliveryId)
  ensure (d.participant principal s.clock) .deliveryNotFound
  pure d

/-- `prepare`: the row of the request, which is this one if there was none. A reply of
an assistant under the same key is not the initiator's. -/
def State.prepare (record : Delivery) : Except MsgError (Delivery × State) :=
  match s.deliveries.rows.find? fun d => d.request = record.request with
  | some d => do
    ensure (d.originInboxId = none) .deliveryUnavailable
    pure (d, s)
  | none => do
    let deliveries ← s.deliveries.insert record .deliveryUnavailable
    pure (record, { s with deliveries := deliveries })

def Delivery.withState (state : DeliveryState) (d : Delivery) : Delivery :=
  { d with state := state }

def State.change (deliveryId : Str) (f : Delivery → Delivery)
    (hf : ∀ d, (f d).deliveryId = d.deliveryId) : State :=
  { s with deliveries := s.deliveries.update deliveryId f hf }

def Delivery.late (now : Time) : Bool := d.sendExpiresAt.any (· ≤ now)

def Delivery.confirmed (now : Time) (job : Nat) (d : Delivery) : Delivery :=
  { d with state := .ready, confirmedAt := some now, queueJobId := some job }

/-- The end of `confirm`, for a delivery that is not confirmed yet. -/
def State.confirmFirst (d : Delivery) : Except MsgError (Delivery × State) :=
  if d.late s.clock then
    .ok (d.withState .expired, s.change d.deliveryId (Delivery.withState .expired) fun _ => rfl)
  else do
    let initiator ← s.initiator principal d.realm
    let recipient ← s.recipient env d.tenantId (d.recipientAiUserId.getD []) d.realm
    ensure (some (env.confirmationDigest d initiator recipient) = d.confirmationSha256)
      .deliveryMappingChanged
    ensure (d.state = .prepared) .deliveryUnavailable
    let job := s.jobs + 1
    pure (d.confirmed s.clock job,
      { s.change d.deliveryId (Delivery.confirmed s.clock job) fun _ => rfl with jobs := job })

def State.confirm (deliveryId : Str) (confirmationSha256 : Bytes) :
    Except MsgError (Delivery × State) := do
  let d ← one .deliveryNotFound (s.deliveries.find deliveryId)
  ensure (d.initiatedBy principal) .deliveryNotFound
  ensure (d.confirmationSha256 = some confirmationSha256) .deliveryPreviewChanged
  ensure (d.state ≠ .cancelled ∧ d.state ≠ .expired) .deliveryNotConfirmable
  if d.confirmedAt.isSome then pure (d, s) else s.confirmFirst env principal d

def State.cancel (deliveryId : Str) : Except MsgError (Unit × State) := do
  let d ← one .deliveryNotFound (s.deliveries.find deliveryId)
  ensure (d.initiatedBy principal) .deliveryNotFound
  pure ((), if d.state = .prepared ∨ d.state = .ready then
    s.change deliveryId (Delivery.withState .cancelled) fun _ => rfl else s)

/-! ## Sending -/

def Delivery.card : Message where
  provider := d.provider
  imInstanceId := d.imInstanceId
  realmId := d.realmId
  senderBotId := d.senderBotId
  targetConversationRef := d.targetConversationRef
  cardContent := d.cardContent
  kind := if d.replySlot = some .groupStatus then .groupStatus else .privateReply

def State.originInbox (deliveryId : Str) : Option Str :=
  (s.deliveries.find deliveryId).bind Delivery.originInboxId

def Delivery.attemptedBy (attempt : Str) (d : Delivery) : Delivery :=
  { d with state := .sending, sendAttemptId := some attempt }

def Delivery.cancelledFor (code : String) (d : Delivery) : Delivery :=
  { d with state := .cancelled, resultCode := some code.toList }

/-- The step from `ready` to `sending`. -/
def State.attempt (s : State) (e : MsgError) (d : Delivery) (attempt : Str) :
    Except MsgError (Option (Delivery × Message) × State) := do
  ensure (s.deliveries.rows.all fun d => d.sendAttemptId ≠ some attempt) e
  let claimed := d.attemptedBy attempt
  pure (some (claimed, claimed.card),
    s.change d.deliveryId (Delivery.attemptedBy attempt) fun _ => rfl)

/-- The delivery goes to the mappings that were confirmed. -/
def Delivery.covered : Option Binding → Option Binding → Bool
  | some initiator, some recipient =>
    d.tenantId = "default".toList ∧ d.recipientAiUserId.any (· ∈ env.recipients) ∧
      some (env.confirmationDigest d initiator recipient) = d.confirmationSha256
  | _, _ => false

/-- The end of `claim`, for a delivery that is ready. -/
def State.claimReady (attempt : Str) : Except MsgError (Option (Delivery × Message) × State) :=
  if d.late s.clock then
    .ok (none, s.change d.deliveryId (Delivery.withState .expired) fun _ => rfl)
  else do
    let initiator ← s.binding d.tenantId d.initiatorAiUserId d.realm
    let recipient ← s.binding d.tenantId (d.recipientAiUserId.getD []) d.realm
    if d.covered env initiator recipient then s.attempt .deliveryUnavailable d attempt
    else pure (none,
      s.change d.deliveryId (Delivery.cancelledFor "im_delivery_mapping_changed") fun _ => rfl)

end

section

variable (s : State) (d : Delivery)

def State.claim (deliveryId attempt : Str) :
    Except MsgError (Option (Delivery × Message) × State) :=
  match s.deliveries.find deliveryId with
  | none => .ok (none, s)
  | some d =>
    if d.state = .ready ∧ d.originInboxId = none then s.claimReady env d attempt
    else .ok (none, s)

def Delivery.resulted (now : Time) (result : DeliveryResult) (d : Delivery) : Delivery :=
  { d with
    state := result.state.delivery
    remoteMessageId := result.remoteMessageId
    acceptedAt := if result.state = .accepted then some now else none
    resultCode := some result.resultCode }

def Delivery.pending : Bool := d.state = .sending ∨ d.state = .unknown

/-- No other delivery has this remote message. -/
def State.remoteFree (message : Option Str) : Bool :=
  message.all fun id => s.deliveries.rows.all fun other =>
    other.deliveryId = d.deliveryId ∨ other.realm ≠ d.realm ∨ other.remoteMessageId ≠ some id

def State.finish (deliveryId attempt : Str) (result : DeliveryResult) :
    Except MsgError (Unit × State) :=
  match s.deliveries.find deliveryId with
  | none => .ok ((), s)
  | some d =>
    if d.sendAttemptId = some attempt ∧ d.pending then do
      ensure (s.remoteFree d result.remoteMessageId) .deliveryUnavailable
      pure ((), s.change deliveryId (Delivery.resulted s.clock result) fun _ => rfl)
    else .ok ((), s)

def Delivery.unconfirmed : Delivery :=
  { d with state := .unknown, resultCode := some "im_delivery_unconfirmed".toList }

def State.uncertain (deliveryId : Str) : Except MsgError (Option (Delivery × Message) × State) :=
  match s.deliveries.find deliveryId with
  | none => .ok (none, s)
  | some d =>
    if d.state = .sending then
      .ok (some (d.unconfirmed, d.unconfirmed.card),
        s.change deliveryId Delivery.unconfirmed fun _ => rfl)
    else if d.state = .unknown then .ok (some (d, d.card), s)
    else .ok (none, s)

/-! ## Recovery -/

/-- What the recovery makes of one ready row: it expires, or it gets a new job unless
its old one is still to be done. -/
def State.recoverRow (todo : Nat → Bool) (s : State) (d : Delivery) : State :=
  if d.originInboxId = none ∧ d.late s.clock then
    s.change d.deliveryId (Delivery.withState .expired) fun _ => rfl
  else if d.queueJobId.any todo then s
  else
    { s.change d.deliveryId (fun d => { d with queueJobId := some (s.jobs + 1) }) fun _ => rfl with
      jobs := s.jobs + 1 }

/-- `recover_ready`. The rows that another transaction has locked are skipped. -/
def State.recoverReady (locked : Str → Bool) (todo : Nat → Bool) : Except MsgError (Unit × State) :=
  .ok ((), (s.deliveries.rows.filter fun d => d.state = .ready ∧ !locked d.deliveryId).foldl
    (State.recoverRow todo) s)

def State.pendingReconciliation : List Str :=
  (s.deliveries.rows.filter Delivery.pending).map Delivery.deliveryId

end

end EternalAI.Messaging
