import EternalAI.Messaging.Replies
import EternalAI.Lib.Commit

/-!
# Messages — the services and their interleavings

`IMDeliveryService` and `PersonalAgentService`, with the store operations that the API
calls directly, executed by any number of processes which may vanish at any point.

* What the messenger, the model and the queue answer is arbitrary, and so are the ids
  that are drawn; a drawn id that is taken is refused by its key.
* `Outside` — the clock, and whoever administers accounts and agents.
* `MsgRun` — the interleavings.
-/

namespace EternalAI.Messaging

open Lib
open Dispatch (Str Time)
open Leases (Bytes)

variable {α : Type} (env : MsgEnv)

def reading (f : State → Except MsgError α) : Prog State MsgError α := do
  let r ← Prog.read f
  Prog.ofExcept r

section

variable (ack : Ack) (principal : Principal)

def commitDelivery (f : State → Except MsgError (α × State)) : Prog State MsgError α :=
  transact ack .deliveryUnavailable .deliveryUnavailable (fun _ => true) f

def commitAgent (f : State → Except MsgError (α × State)) : Prog State MsgError α :=
  transact ack .agentUnavailable .agentUnavailable (fun _ => true) f

/-! ## Deliveries of people -/

/-- `DeliveryPrepare`. -/
structure PrepareRequest where
  (recipientAiUserId note : Str)
  sendExpiresAt : Time
  idempotencyKey : Str

variable (r : PrepareRequest)

def Delivery.sameRequest (d : Delivery) (r : PrepareRequest) : Except MsgError Unit :=
  ensure ((d.recipientAiUserId, d.note, d.sendExpiresAt) =
    (some r.recipientAiUserId, r.note, some r.sendExpiresAt)) .deliveryIdempotencyConflict

/-- The record of `prepare`, before its digest is known. -/
def newDelivery (deliveryId : Str) (principal : Principal) (r : PrepareRequest)
    (recipient : Binding) (card : Message) : Delivery where
  deliveryId := deliveryId
  tenantId := principal.tenantId
  initiatorAiUserId := principal.aiUserId
  recipientAiUserId := some recipient.aiUserId
  recipientBindingId := some recipient.bindingId
  recipientMappingVersion := some (env.version recipient)
  provider := card.provider
  imInstanceId := card.imInstanceId
  realmId := card.realmId
  senderBotId := card.senderBotId
  targetConversationRef := card.targetConversationRef
  cardContent := card.cardContent
  note := r.note
  confirmationSha256 := some []
  idempotencyKey := r.idempotencyKey
  state := .prepared
  confirmedAt := none
  sendExpiresAt := some r.sendExpiresAt
  queueJobId := none
  sendAttemptId := none
  remoteMessageId := none
  acceptedAt := none
  resultCode := none
  originInboxId := none
  replySlot := none

def Delivery.sealed (d : Delivery) (initiator recipient : Binding) : Delivery :=
  { d with confirmationSha256 := some (env.confirmationDigest d initiator recipient) }

/-- `prepare` for a request that is not known yet. -/
def prepareNew (deliveryId : Str) : Prog State MsgError Delivery := do
  let now ← Prog.read State.clock
  Prog.require (now < r.sendExpiresAt) .deliveryExpiryInvalid
  Prog.require (r.recipientAiUserId ≠ principal.aiUserId) .deliveryRecipientInvalid
  let both ← reading (State.bindingsOf env · principal r.recipientAiUserId)
  let card ← Prog.ofExcept (one .deliveryMappingInvalid
    (env.privateCard deliveryId principal.displayName both.2.imUserId r.note))
  let record := newDelivery env deliveryId principal r both.2 card
  let saved ← commitDelivery ack (State.prepare · (record.sealed env both.1 both.2))
  Prog.ofExcept (saved.sameRequest r)
  reading (State.get · principal saved.deliveryId)

def prepare (deliveryId : Str) : Prog State MsgError Delivery := do
  let existing ← Prog.read (State.findRequest · principal r.idempotencyKey)
  match existing with
  | some d => do
    Prog.ofExcept (d.sameRequest r)
    reading (State.get · principal d.deliveryId)
  | none => prepareNew env ack principal r deliveryId

end

def confirm (ack : Ack) (principal : Principal) (deliveryId : Str) (confirmationSha256 : Bytes) :
    Prog State MsgError Delivery := do
  let _ ← commitDelivery ack (State.confirm env · principal deliveryId confirmationSha256)
  reading (State.get · principal deliveryId)

def cancel (ack : Ack) (principal : Principal) (deliveryId : Str) :
    Prog State MsgError Delivery := do
  commitDelivery ack (State.cancel · principal deliveryId)
  reading (State.get · principal deliveryId)

/-! ## Questions to assistants -/

/-- What the messenger answers while one message is handled. -/
structure Im where
  /-- `delegation_mentions`. -/
  mentions : Except MsgError (Option (List Str))
  /-- `reread_trigger`: the question. -/
  reread : Except MsgError Str
  /-- `check_identity`. -/
  identity : Except MsgError Unit

def refusalText : Str := "不具备有效授权或资料已失效，无法代答".toList

def MsgEnv.refusal (c : Context) (deliveryId : Str) : Message :=
  env.agentReply deliveryId c.executionAgent.botUserId c.actor.imUserId refusalText

/-- `_delegation`. -/
def delegationOf (im : Im) (actor : Binding) : Prog State MsgError (Option (Agent × Agent)) := do
  let bots ← Prog.ofExcept im.mentions
  match bots with
  | none => pure none
  | some bots => reading (State.delegationAgents env · actor bots)

section

variable (ack : Ack) (im : Im) (agent : Agent) (event : Event)

/-- The first part of `_question`: the agents of a delegation are still the same. -/
def sameDelegation (c : Context) : Prog State MsgError Unit :=
  if c.delegation.isNone then pure ()
  else do
    let agents ← delegationOf env im c.actor
    Prog.require (agents.map (fun pair => (pair.1.agentId, pair.2.agentId)) =
      some (c.agent.agentId, c.executionAgent.agentId)) .sourceChanged

def question (c : Context) : Prog State MsgError Str := do
  sameDelegation env im c
  let text ← Prog.ofExcept im.reread
  Prog.ofExcept im.identity
  pure text

/-- The transaction of `accept`, from the reads under its locks to the insert. -/
def acceptNew (delegate : Option Str) (inboxId : Str) : Prog State MsgError ReceiveResult := do
  let actor ← reading (State.inboundActor · agent event)
  match actor with
  | none => pure ⟨none, .actorUnavailable⟩
  | some actor => do
    let may ← reading (State.delegates env · agent actor delegate)
    if may then do
      let grantId ← reading (State.currentGrant env · (delegate.getD agent.agentId) actor)
      commitAgent ack (State.insertInbox env · inboxId agent event actor delegate grantId)
    else pure ⟨none, .targetUnavailable⟩

def State.activeAgent (s : State) (agentId : Str) : Bool :=
  (s.agents.find agentId).any fun a => a.status = .active

/-- The session of `accept`. The event is looked for before and after the lock. -/
def acceptSession (delegate : Option Str) (inboxId : Str) : Prog State MsgError ReceiveResult := do
  let existing ← Prog.read (State.existing · agent event)
  match existing with
  | some r => pure r
  | none => do
    let active ← Prog.read (State.activeAgent · (delegate.getD agent.agentId))
    if active then do
      let existing ← Prog.read (State.existing · agent event)
      match existing with
      | some r => pure r
      | none => acceptNew env ack agent event delegate inboxId
    else pure ⟨none, .targetUnavailable⟩

/-- The end of `accept` where the database has raised: only a row that is there counts. -/
def acknowledged : Except MsgError ReceiveResult → Prog State MsgError ReceiveResult
  | .ok r => pure r
  | .error _ => do
    let existing ← Prog.read (State.existing · agent event)
    Prog.ofExcept (one .agentReceiveUnavailable existing)

def accept (agentId : Str) (event : Event) (delegate : Option Str) (inboxId : Str) :
    Prog State MsgError ReceiveResult := do
  let agent ← reading (State.agent · agentId)
  if event.realm = agent.realm ∧ event.targetBotId = agent.botUserId then do
    let r ← (acceptSession env ack agent event delegate inboxId).attempt
    acknowledged agent event r
  else pure ⟨none, .targetUnavailable⟩

/-- `needle in text`. -/
def contained (needle : Str) : Str → Bool
  | [] => needle.isEmpty
  | c :: cs => needle.isPrefixOf (c :: cs) || contained needle cs

/-- The part of `receive` about delegation: who is asked, or why nobody is. -/
def routeOf (text : Str) : Prog State MsgError (Except ReceiveResult (Option Str)) :=
  if event.conversationKind = .group ∧ event.triggerKind = .mention ∧
      contained "委托".toList text then do
    let actor ← reading (State.inboundActor · agent event)
    match actor with
    | none => pure (.error ⟨none, .actorUnavailable⟩)
    | some actor => do
      let agents ← delegationOf env im actor
      match agents with
      | none => pure (.ok none)
      | some pair => do
        let _ ← Prog.ofExcept im.reread
        pure (if agent.agentId = pair.1.agentId then .ok (some pair.2.agentId)
          else .error ⟨none, .notDelegationSource⟩)
  else pure (.ok none)

/-- `receive`, where `callback` is the authenticated event with its text. -/
def receive (callback : Str → Except MsgError (Event × Str)) (agentId inboxId : Str) :
    Prog State MsgError ReceiveResult := do
  let agent ← reading (State.agent · agentId)
  let came ← Prog.ofExcept (callback agent.botUserId)
  let existing ← Prog.read (State.existing · agent came.1)
  match existing with
  | some r => pure r
  | none => do
    let route ← routeOf env im agent came.1 came.2
    match route with
    | .error r => pure r
    | .ok delegate => accept env ack agentId came.1 delegate inboxId

end

/-! ## Answers of assistants -/

/-- The ids that are drawn and the fates of the transactions, in order. -/
structure Draws where
  id : Nat → Str
  ack : Nat → Ack

/-- The text of an answer: whose text it is made of, and which version. -/
def answerText (agent : Agent) (text : Str) (material : Material) : Str :=
  "AI 根据".toList ++ agent.displayName ++ "的发布资料代答，未经本人核实。\n\n".toList ++ text ++
    "\n\n资料：".toList ++ material.title ++ " · v".toList ++ Nat.toDigits 10 material.version ++
    "\nSHA256：".toList ++ hex material.contentSha256

/-- A model that answers a question from a text, with a result code. -/
abbrev Runtime := Str → Material → Except MsgError (Str × Str)

/-- The answer, if there is a text to answer from, and its result code. -/
def answerOf (runtime : Option Runtime) (c : Context) (asked deliveryId : Str) :
    Option Authorized → Except MsgError (Option Message × Str)
  | none => .ok (none, "authorization_unavailable".toList)
  | some authorized => do
    let model ← one .agentRuntimeUnavailable runtime
    let result ← model asked authorized.material
    pure (some (env.agentReply deliveryId c.executionAgent.botUserId c.actor.imUserId
      (answerText c.executionAgent result.1 authorized.material)), result.2)

def Context.delegateName (c : Context) : Option Str :=
  c.delegation.map fun d => d.targetAgent.displayName

section

variable (draws : Draws) (im : Im) (runtime : Option Runtime)

def announce (c : Context) : Prog State MsgError Unit :=
  if c.event.conversationKind = .group then
    commitAgent (draws.ack 1) (State.enqueueStatus env · c (draws.id 0) (draws.id 1)
      (env.groupStatus (draws.id 0) c.agent.botUserId c.event.conversationRef c.delegateName))
  else pure ()

/-- `answer`, for an event that was claimed. -/
def answerClaimed (c : Context) : Prog State MsgError Unit := do
  let asked ← question env im c
  announce env draws c
  let authorized ← reading (State.material env · c)
  let answer ← Prog.ofExcept (answerOf env runtime c asked (draws.id 2) authorized)
  commitAgent (draws.ack 2) (State.complete env · c (draws.id 2) (draws.id 3) answer.1
    (env.refusal c (draws.id 2)) answer.2)

/-- The part of `answer` that may raise. -/
def answerBody (inboxId : Str) : Prog State MsgError Unit := do
  let context ← commitAgent (draws.ack 0) (State.claimInbox env · inboxId)
  match context with
  | none => pure ()
  | some c => answerClaimed env draws im runtime c

def MsgError.code : MsgError → String
  | .deliveryUnavailable => "im_delivery_unavailable"
  | .deliveryMappingUnavailable => "im_delivery_mapping_unavailable"
  | .deliveryRecipientUnavailable => "im_delivery_recipient_unavailable"
  | .deliveryNotFound => "im_delivery_not_found"
  | .deliveryPreviewChanged => "im_delivery_preview_changed"
  | .deliveryNotConfirmable => "im_delivery_not_confirmable"
  | .deliveryMappingChanged => "im_delivery_mapping_changed"
  | .deliveryIdempotencyConflict => "im_delivery_idempotency_conflict"
  | .deliveryExpiryInvalid => "im_delivery_expiry_invalid"
  | .deliveryRecipientInvalid => "im_delivery_recipient_invalid"
  | .deliveryMappingInvalid => "im_delivery_mapping_invalid"
  | .agentUnavailable => "personal_agent_unavailable"
  | .agentNotFound => "personal_agent_not_found"
  | .agentMappingChanged => "personal_agent_mapping_changed"
  | .agentExpiryInvalid => "personal_agent_expiry_invalid"
  | .agentGranteeUnavailable => "personal_agent_grantee_unavailable"
  | .agentGrantNotFound => "personal_agent_grant_not_found"
  | .agentMaterialNotFound => "personal_agent_material_not_found"
  | .agentReceiveUnavailable => "personal_agent_receive_unavailable"
  | .agentRuntimeUnavailable => "personal_agent_runtime_unavailable"
  | .delegationExpired => "delegation_expired"
  | .sourceChanged => "im_source_changed"
  | .runtimeFailed => "personal_agent_runtime_failed"

/-- The `except` of `answer`. -/
def failed (ack : Ack) (inboxId : Str) : Except MsgError Unit → Prog State MsgError Unit
  | .ok () => pure ()
  | .error e => commitAgent ack (State.fail · inboxId e.code.toList)

def answer (inboxId : Str) : Prog State MsgError Unit := do
  let r ← (answerBody env draws im runtime inboxId).attempt
  failed (draws.ack 3) inboxId r

end

/-! ## The outbox -/

/-- The source is valid unless the messenger says otherwise; other exceptions are raised. -/
def sourceValid : Except MsgError Str → Except MsgError Bool
  | .ok _ => .ok true
  | .error .sourceChanged => .ok false
  | .error e => .error e

section

variable (draws : Draws) (im : Im) (deliveryId : Str)

/-- `claim_reply` for a reply that is ready. -/
def claimReplyOf (c : Context) : Prog State MsgError (Option (Delivery × Message)) := do
  let asked ← (question env im c).attempt
  let valid ← Prog.ofExcept (sourceValid asked)
  commitAgent (draws.ack 0)
    (State.claimReply env · c deliveryId valid (env.refusal c deliveryId) (draws.id 0))

def claimReply : Prog State MsgError (Option (Delivery × Message)) := do
  let context ← reading (State.replyContext · deliveryId)
  match context with
  | none => pure none
  | some c => claimReplyOf env draws im deliveryId c

/-- The claim of `send`: a person's delivery, or the reply of an assistant. -/
def claimOf (replies : Bool) (deliveryId : Str) :
    Option Str → Prog State MsgError (Option (Delivery × Message))
  | none => commitDelivery (draws.ack 0) (State.claim env · deliveryId (draws.id 0))
  | some _ => do
    Prog.require replies .agentUnavailable
    claimReply env draws im deliveryId

def settle (ack : Ack) (deliveryId : Str) (result : DeliveryResult) (d : Delivery) :
    Prog State MsgError Unit :=
  commitDelivery ack (State.finish · deliveryId (d.sendAttemptId.getD []) result)

/-- `send`. An attempt that is interrupted stays as it is. -/
def send (replies : Bool) (sent : Message → DeliveryResult) (deliveryId : Str) :
    Prog State MsgError Unit := do
  let origin ← Prog.read (State.originInbox · deliveryId)
  let claimed ← claimOf env draws im replies deliveryId origin
  match claimed with
  | none => pure ()
  | some attempt => settle (draws.ack 1) deliveryId (sent attempt.2) attempt.1

/-- A message that was not found may still have been sent. -/
def DeliveryResult.reconciled (result : DeliveryResult) : DeliveryResult :=
  if result.state = .accepted then result else ⟨.unknown, none, result.resultCode⟩

def reconcile (seen : Message → DeliveryResult) (deliveryId : Str) : Prog State MsgError Unit := do
  let pending ← commitDelivery (draws.ack 0) (State.uncertain · deliveryId)
  match pending with
  | none => pure ()
  | some attempt => settle (draws.ack 1) deliveryId (seen attempt.2).reconciled attempt.1

/-- `reconcile`. -/
def reconcileFor (seen : Message → DeliveryResult) (principal : Principal) (deliveryId : Str) :
    Prog State MsgError Delivery := do
  let d ← reading (State.get · principal deliveryId)
  Prog.require (d.initiatorAiUserId = principal.aiUserId) .deliveryNotFound
  reconcile draws seen deliveryId
  reading (State.get · principal deliveryId)

end

/-- The loop of `maintain`. -/
def reconcileAll (draws : Str → Draws) (seen : Message → DeliveryResult) :
    List Str → Prog State MsgError Unit
  | [] => pure ()
  | deliveryId :: rest => do
    reconcile (draws deliveryId) seen deliveryId
    reconcileAll draws seen rest

def maintain (ack : Ack) (locked : Str → Bool) (todo : Nat → Bool) (draws : Str → Draws)
    (seen : Message → DeliveryResult) : Prog State MsgError Unit := do
  commitDelivery ack (State.recoverReady · locked todo)
  let pending ← Prog.read State.pendingReconciliation
  reconcileAll draws seen pending

/-! ## Runs -/

/-- Something that is asked of the services, with what the others answer in it. -/
inductive MsgCall where
  | prepares (principal : Principal) (request : PrepareRequest)
  | confirms (principal : Principal) (deliveryId : Str) (confirmationSha256 : Bytes)
  | cancels (principal : Principal) (deliveryId : Str)
  | sends (im : Im) (replies : Bool) (sent : Message → DeliveryResult) (deliveryId : Str)
  | reconciles (seen : Message → DeliveryResult) (principal : Principal) (deliveryId : Str)
  | maintains (locked : Str → Bool) (todo : Nat → Bool) (draws : Str → Draws)
      (seen : Message → DeliveryResult)
  | publishes (principal : Principal) (agentId title body : Str) (expiresAt : Time)
  | grants (principal : Principal) (agentId : Str) (materialVersion : Nat) (grantee : Str)
      (expiresAt : Time)
  | revokes (principal : Principal) (agentId grantId : Str)
  | withdraws (principal : Principal) (agentId : Str) (version : Nat)
  | receives (im : Im) (callback : Str → Except MsgError (Event × Str)) (agentId : Str)
  | answers (im : Im) (runtime : Option Runtime) (inboxId : Str)
  | maintainsInbox (dead : Nat → Bool)

def MsgCall.program (draws : Draws) : MsgCall → Prog State MsgError Unit
  | .prepares principal request =>
    (prepare env (draws.ack 0) principal request (draws.id 0)).discard
  | .confirms principal deliveryId confirmationSha256 =>
    (confirm env (draws.ack 0) principal deliveryId confirmationSha256).discard
  | .cancels principal deliveryId => (cancel (draws.ack 0) principal deliveryId).discard
  | .sends im replies sent deliveryId => send env draws im replies sent deliveryId
  | .reconciles seen principal deliveryId => (reconcileFor draws seen principal deliveryId).discard
  | .maintains locked todo each seen => maintain (draws.ack 0) locked todo each seen
  | .publishes principal agentId title body expiresAt =>
    (commitAgent (draws.ack 0) (State.publish env · principal agentId title body expiresAt)).discard
  | .grants principal agentId materialVersion grantee expiresAt =>
    (commitAgent (draws.ack 0)
      (State.grant env · principal agentId materialVersion grantee expiresAt (draws.id 0))).discard
  | .revokes principal agentId grantId =>
    commitAgent (draws.ack 0) (State.revoke env · principal agentId grantId)
  | .withdraws principal agentId version =>
    commitAgent (draws.ack 0) (State.withdraw env · principal agentId version)
  | .receives im callback agentId =>
    (receive env (draws.ack 0) im callback agentId (draws.id 0)).discard
  | .answers im runtime inboxId => answer env draws im runtime inboxId
  | .maintainsInbox dead => commitAgent (draws.ack 0) (State.maintainInbox · dead)

/-- What else happens: time passes, and accounts and agents are administered. -/
inductive Outside : State → State → Prop
  | ticks {s : State} {now : Time} : s.clock ≤ now → Outside s { s with clock := now }
  | administers {s : State} (bindings : Keyed Binding.bindingId) (agents : Keyed Agent.agentId) :
      Outside s { s with bindings := bindings, agents := agents }

def Unused (s : State) : Prop :=
  s.materials = .empty ∧ s.grants = .empty ∧ s.inbox = .empty ∧ s.deliveries = .empty

/-- Interleavings of any calls. A process that dies leaves the database as it is. -/
def MsgRun : List State → Procs State MsgError → Prop :=
  PoolRun Unused Outside
    (fun _ p => ∃ (call : MsgCall) (draws : Draws), p = call.program env draws) fun _ s => s

end EternalAI.Messaging
