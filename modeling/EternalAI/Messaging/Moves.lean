import EternalAI.Messaging.Service

/-!
# Messages — what a step can do

What one step may do to a row is said once for every table; invariants and histories
only look at that.

* `DeliveryStep`, `InboxStep`, `GrantStep`, `MaterialStep` — the steps of rows.
* `Evolves` — the step of a state: rows move by these, and no row is deleted.
* `Sound` — the invariant. A step keeps it, and may be taken for granted in it.
* `Later` — what is never undone.
-/

namespace EternalAI.Messaging

open Lib
open Dispatch (Str Time)
open Leases (Bytes)

variable (env : MsgEnv)

/-! ## Deliveries -/

/-- The card is the refusal of some assistant to some person. -/
def RefusalCard (d : Delivery) : Prop :=
  ∃ bot user, d.cardContent = (env.agentReply d.deliveryId bot user refusalText).cardContent

/-- The card is the notice to a group. -/
def StatusCard (d : Delivery) : Prop :=
  ∃ bot conversation delegate,
    d.cardContent = (env.groupStatus d.deliveryId bot conversation delegate).cardContent

def Delivery.preview (d : Delivery) : Delivery :=
  { d with
    state := .prepared, confirmedAt := none, queueJobId := none, sendAttemptId := none
    remoteMessageId := none, acceptedAt := none, resultCode := none }

def Delivery.reply (d : Delivery) : Option Str × Option ReplySlot := (d.originInboxId, d.replySlot)

/-- The two mappings of a delivery are these, and its confirmation covers them. -/
structure Covers (s : State) (d : Delivery) (initiator recipient : Binding) : Prop where
  sender : s.binding d.tenantId d.initiatorAiUserId d.realm = .ok (some initiator)
  receiver : s.binding d.tenantId (d.recipientAiUserId.getD []) d.realm = .ok (some recipient)
  digest : some (env.confirmationDigest d initiator recipient) = d.confirmationSha256

def Answerable (s : State) (inboxId : Str) : Prop :=
  ∃ c grant a, s.context inboxId = .ok c ∧ s.grantOf c.grantId = .ok grant ∧
    s.authorized env c grant = some a

def Identified (s : State) (inboxId : Str) : Prop :=
  ∃ c, s.context inboxId = .ok c ∧ c.identitiesValid env = true

inductive Content (s : State) (inboxId : Str) (d : Delivery) : Str → Prop
  | status : d.replySlot ≠ some .privateReply → Content s inboxId d d.cardContent
  | answer : d.replySlot = some .privateReply → Answerable env s inboxId →
      Content s inboxId d d.cardContent
  /-- The answer is not allowed any more. -/
  | takenBack {bot user : Str} : d.replySlot = some .privateReply →
      Content s inboxId d (env.agentReply d.deliveryId bot user refusalText).cardContent
  /-- The event was refused before. -/
  | refusal {row : Inbox} : d.replySlot = some .privateReply → s.inbox.find inboxId = some row →
      row.state = .refused → Content s inboxId d d.cardContent

inductive DeliveryStep (s : State) (d : Delivery) : Delivery → Prop
  | stays : DeliveryStep s d d
  | requeued (job : Nat) : d.state = .ready → DeliveryStep s d { d with queueJobId := some job }
  | confirms {initiator recipient : Binding} (job : Nat) : d.originInboxId = none →
      d.state = .prepared → Covers env s d initiator recipient →
      DeliveryStep s d (d.confirmed s.clock job)
  | expires : d.originInboxId = none →
      (d.confirmedAt = none ∧ d.state ≠ .cancelled ∧ d.state ≠ .expired ∨ d.state = .ready) →
      DeliveryStep s d (d.withState .expired)
  | cancels (code : Option Str) : d.state = .prepared ∨ d.state = .ready →
      DeliveryStep s d { d with state := .cancelled, resultCode := code }
  | sends {initiator recipient : Binding} (attempt : Str) : d.originInboxId = none →
      d.state = .ready → d.late s.clock = false → Covers env s d initiator recipient →
      DeliveryStep s d (d.attemptedBy attempt)
  | replies {inboxId content : Str} (attempt : Str) : d.originInboxId = some inboxId →
      d.state = .ready → Identified env s inboxId → Content env s inboxId d content →
      DeliveryStep s d ((d.withContent content).attemptedBy attempt)
  | finishes (result : DeliveryResult) : d.pending = true →
      DeliveryStep s d (d.resulted s.clock result)
  | givesUp : d.state = .sending → DeliveryStep s d d.unconfirmed

/-- What a new delivery is. -/
inductive NewDelivery (s s' : State) (d : Delivery) : Prop
  | person : d.originInboxId = none → d.replySlot = none → d.state = .prepared →
      d.confirmedAt = none → d.sendExpiresAt.isSome → NewDelivery s s' d
  | reply {inboxId : Str} {slot : ReplySlot} {row : Inbox} : d.reply = (some inboxId, some slot) →
      d.state = .ready → s.inbox.find inboxId = some row → row.state = .running →
      (slot = .groupStatus → StatusCard env d) →
      (∀ k x, s'.deliveries.find k = some x → x.reply = d.reply → k = d.deliveryId) →
      NewDelivery s s' d

/-! ## The other rows -/

inductive InboxStep (s' : State) (row : Inbox) : Inbox → Prop
  | stays : InboxStep s' row row
  | moves (state : InboxState) (code : Option Str) : row.state ≠ .refused → state ≠ .refused →
      InboxStep s' row (row.moved state code)
  /-- Its reply, if there is one, is a refusal from now on. -/
  | refuses (code : Option Str) :
      (∀ k d, s'.deliveries.find k = some d →
        d.reply = (some row.inboxId, some .privateReply) → RefusalCard env d) →
      InboxStep s' row (row.moved .refused code)

/-- A new event is the only one under its key. -/
def NewInbox (s' : State) (row : Inbox) : Prop :=
  row.state = .queued ∧ ∀ k x, s'.inbox.find k = some x → x.key = row.key → k = row.inboxId

inductive GrantStep (g : Grant) : Grant → Prop
  | stays : GrantStep g g
  | revoked (since : Time) : GrantStep g { g with revokedAt := some since }

/-- A new grant is the only one in force between its agent and its grantee. -/
def NewGrant (s' : State) (g : Grant) : Prop :=
  ∀ k x, s'.grants.find k = some x → x.revokedAt = none → x.agentId = g.agentId →
    x.granteeBindingId = g.granteeBindingId → k = g.grantId

inductive MaterialStep (m : Material) : Material → Prop
  | stays : MaterialStep m m
  | withdrawn (since : Time) : MaterialStep m { m with withdrawnAt := some since }

/-- One step, seen from the rows. -/
structure Evolves (s s' : State) : Prop where
  clock : s.clock ≤ s'.clock
  deliveries : s.deliveries.Evolves (DeliveryStep env s) (NewDelivery env s s') s'.deliveries
  inbox : s.inbox.Evolves (InboxStep env s') (NewInbox s') s'.inbox
  grants : s.grants.Evolves GrantStep (NewGrant s') s'.grants
  materials : s.materials.Evolves MaterialStep (fun _ => True) s'.materials

/-! ## The invariant -/

structure Sound (s : State) : Prop where
  /-- A person's delivery has an expiry. -/
  expiry : ∀ k d, s.deliveries.find k = some d → d.originInboxId = none → d.sendExpiresAt.isSome
  /-- Before its confirmation it is nowhere near the messenger. -/
  unconfirmed : ∀ k d, s.deliveries.find k = some d → d.originInboxId = none →
    d.confirmedAt = none → d.state = .prepared ∨ d.state = .cancelled ∨ d.state = .expired
  /-- A reply is of one of the two kinds. -/
  slots : ∀ k d inboxId, s.deliveries.find k = some d → d.originInboxId = some inboxId →
    d.replySlot ≠ none
  /-- An event has one reply of each kind. -/
  replies : ∀ k k' d d' inboxId, s.deliveries.find k = some d → s.deliveries.find k' = some d' →
    d.originInboxId = some inboxId → d'.reply = d.reply → k = k'
  /-- A notice to a group says nothing else. -/
  status : ∀ k d, s.deliveries.find k = some d → d.replySlot = some .groupStatus →
    StatusCard env d
  /-- The reply to a refused event is a refusal. -/
  refused : ∀ k d inboxId row, s.deliveries.find k = some d →
    d.reply = (some inboxId, some .privateReply) → s.inbox.find inboxId = some row →
    row.state = .refused → RefusalCard env d
  /-- An event comes in once. -/
  events : ∀ k k' row row', s.inbox.find k = some row → s.inbox.find k' = some row' →
    row.key = row'.key → k = k'
  /-- One grant is in force between an agent and a grantee. -/
  grants : ∀ k k' g g', s.grants.find k = some g → s.grants.find k' = some g' →
    g.revokedAt = none → g'.revokedAt = none → g.agentId = g'.agentId →
    g.granteeBindingId = g'.granteeBindingId → k = k'

def MsgStep : List State → State → Prop
  | s :: _, s' => Sound env s → Evolves env s s'
  | [], _ => False

variable {env} {s s' : State}

theorem sound_unused (hUnused : Unused s) : Sound env s := by
  obtain ⟨-, hGrants, hInbox, hDeliveries⟩ := hUnused
  have hNoDelivery : ∀ k d, s.deliveries.find k ≠ some d := by
    intro k d hFound
    rw [hDeliveries] at hFound
    cases hFound
  have hNoEvent : ∀ k row, s.inbox.find k ≠ some row := by
    intro k row hFound
    rw [hInbox] at hFound
    cases hFound
  have hNoGrant : ∀ k g, s.grants.find k ≠ some g := by
    intro k g hFound
    rw [hGrants] at hFound
    cases hFound
  exact {
    expiry := fun k d hFound => absurd hFound (hNoDelivery k d)
    unconfirmed := fun k d hFound => absurd hFound (hNoDelivery k d)
    slots := fun k d _ hFound => absurd hFound (hNoDelivery k d)
    replies := fun k _ d _ _ hFound => absurd hFound (hNoDelivery k d)
    status := fun k d hFound => absurd hFound (hNoDelivery k d)
    refused := fun k d _ _ hFound => absurd hFound (hNoDelivery k d)
    events := fun k _ row _ hFound => absurd hFound (hNoEvent k row)
    grants := fun k _ g _ hFound => absurd hFound (hNoGrant k g) }

/-! ## One delivery -/

namespace DeliveryStep

variable {d d' : Delivery}

section

variable (hStep : DeliveryStep env s d d')

include hStep

theorem deliveryId : d'.deliveryId = d.deliveryId := by
  cases hStep <;> rfl

theorem reply : d'.reply = d.reply := by
  cases hStep <;> rfl

theorem origin : d'.originInboxId = d.originInboxId := congrArg Prod.fst hStep.reply

theorem slot : d'.replySlot = d.replySlot := congrArg Prod.snd hStep.reply

theorem expiry : d'.sendExpiresAt = d.sendExpiresAt := by
  cases hStep <;> rfl

theorem preview (hPerson : d.originInboxId = none) : d'.preview = d.preview := by
  cases hStep with
  | replies attempt hOrigin =>
    rw [hPerson] at hOrigin
    cases hOrigin
  | _ => rfl

/-- The card changes into a refusal only, and only where it is a private one. -/
theorem content :
    d'.cardContent = d.cardContent ∨ d.replySlot = some .privateReply ∧ RefusalCard env d' := by
  cases hStep with
  | replies attempt hOrigin hReady hWho hContent =>
    cases hContent with
    | takenBack hPrivate => exact .inr ⟨hPrivate, _, _, rfl⟩
    | _ => exact .inl rfl
  | _ => exact .inl rfl

theorem confirmation (hNone : d.confirmedAt = none) (hSome : d'.confirmedAt ≠ none) :
    d.originInboxId = none ∧ d.state = .prepared ∧
      ∃ initiator recipient, Covers env s d initiator recipient := by
  cases hStep with
  | confirms job hPerson hPrepared hCovers => exact ⟨hPerson, hPrepared, _, _, hCovers⟩
  | _ => exact absurd hNone hSome

/-- Where a delivery comes to be sent, it was ready, and it is one or the other kind. -/
theorem sending (hBefore : d.state ≠ .sending) (hNow : d'.state = .sending) : d.state = .ready ∧
      ((d.originInboxId = none ∧ d.late s.clock = false ∧
          ∃ initiator recipient, Covers env s d initiator recipient) ∨
        ∃ inboxId, d.originInboxId = some inboxId ∧ Identified env s inboxId ∧
          Content env s inboxId d d'.cardContent) := by
  cases hStep with
  | stays | requeued job hReady => exact absurd hNow hBefore
  | sends attempt hPerson hReady hTime hCovers =>
    exact ⟨hReady, .inl ⟨hPerson, hTime, _, _, hCovers⟩⟩
  | replies attempt hOrigin hReady hWho hContent =>
    exact ⟨hReady, .inr ⟨_, hOrigin, hWho, hContent⟩⟩
  | finishes result hPending =>
    cases hState : result.state with
    | _ =>
      have hSame : result.state.delivery = .sending := hNow
      rw [hState] at hSame
      cases hSame
  | confirms | expires | cancels | givesUp => cases hNow

end

end DeliveryStep

def DeliveryState.rank : DeliveryState → Nat
  | .prepared => 0
  | .ready => 1
  | .sending => 2
  | .unknown => 3
  | .accepted | .knownRejected | .cancelled | .expired => 4

/-- What becomes of a delivery: it stays where it is or goes further. -/
structure Delivery.Later (d d' : Delivery) : Prop where
  reply : d'.reply = d.reply
  preview : d.originInboxId = none → d'.preview = d.preview
  state : d'.state = d.state ∨ d.state.rank < d'.state.rank

theorem Delivery.Later.refl (d : Delivery) : d.Later d := ⟨rfl, fun _ => rfl, .inl rfl⟩

variable {d d' : Delivery}

theorem Delivery.Later.origin (hLater : d.Later d') : d'.originInboxId = d.originInboxId :=
  congrArg Prod.fst hLater.reply

theorem Delivery.Later.trans {d₁ d₂ d₃ : Delivery} (h₁ : d₁.Later d₂) (h₂ : d₂.Later d₃) :
    d₁.Later d₃ where
  reply := h₂.reply.trans h₁.reply
  preview hPerson := (h₂.preview (h₁.origin.trans hPerson)).trans (h₁.preview hPerson)
  state := by
    rcases h₁.state with hSame | hLt
    · rw [← hSame]
      exact h₂.state
    · rcases h₂.state with hSame | hLt'
      · rw [hSame]
        exact .inr hLt
      · exact .inr (hLt.trans hLt')

theorem further {before : DeliveryState} (now : DeliveryState) (hBefore : d.state = before)
    (hNow : d'.state = now) (hLt : before.rank < now.rank) :
    d'.state = d.state ∨ d.state.rank < d'.state.rank := by
  rw [hBefore, hNow]
  exact .inr hLt

variable {k : Str}

theorem DeliveryStep.later (hSound : Sound env s) (hFound : s.deliveries.find k = some d)
    (hStep : DeliveryStep env s d d') : d.Later d' where
  reply := hStep.reply
  preview := hStep.preview
  state := by
    cases hStep with
    | stays | requeued => exact .inl rfl
    | confirms job hPerson hPrepared => exact further .ready hPrepared rfl (by decide)
    | expires hPerson hOpen =>
      rcases hOpen with ⟨hNone, hNotCancelled, hNotExpired⟩ | hReady
      · -- the only case that needs the invariant: what was never confirmed has not been sent
        rcases hSound.unconfirmed k d hFound hPerson hNone with hPrepared | hCancelled | hExpired
        · exact further .expired hPrepared rfl (by decide)
        · exact absurd hCancelled hNotCancelled
        · exact absurd hExpired hNotExpired
      · exact further .expired hReady rfl (by decide)
    | cancels code hOpen =>
      rcases hOpen with hPrepared | hReady
      · exact further .cancelled hPrepared rfl (by decide)
      · exact further .cancelled hReady rfl (by decide)
    | sends attempt hPerson hReady | replies attempt hOrigin hReady =>
      exact further .sending hReady rfl (by decide)
    | finishes result hPending =>
      have hState : (d.resulted s.clock result).state = result.state.delivery := rfl
      rw [hState]
      rcases of_decide_eq_true hPending with hOpen | hOpen <;> rw [hOpen] <;>
        cases result.state <;> first | exact .inl rfl | exact .inr (by decide)
    | givesUp hSending => exact further .unknown hSending rfl (by decide)

/-! ## One event, one grant -/

def Inbox.fixed (row : Inbox) : Inbox := row.moved .queued none

variable {row row' : Inbox}

theorem InboxStep.fixed (hStep : InboxStep env s' row row') : row'.fixed = row.fixed := by
  cases hStep <;> rfl

theorem Inbox.key_of_fixed (hFixed : row'.fixed = row.fixed) : row'.key = row.key := by
  have hSame : row'.fixed.key = row.fixed.key := by rw [hFixed]
  exact hSame

theorem Inbox.grantId_of_fixed (hFixed : row'.fixed = row.fixed) : row'.grantId = row.grantId := by
  have hSame : row'.fixed.grantId = row.fixed.grantId := by rw [hFixed]
  exact hSame

variable {g g' : Grant}

theorem GrantStep.unrevoked (hStep : GrantStep g g') (hNone : g'.revokedAt = none) : g' = g := by
  cases hStep with
  | stays => rfl
  | revoked => cases hNone

/-! ## The invariant is kept -/

theorem NewDelivery.of_person (hNew : NewDelivery env s s' d) (hPerson : d.originInboxId = none) :
    d.state = .prepared ∧ d.confirmedAt = none ∧ d.sendExpiresAt.isSome := by
  cases hNew with
  | person _ _ hPrepared hNone hSome => exact ⟨hPrepared, hNone, hSome⟩
  | reply hReply =>
    have hOrigin := congrArg Prod.fst hReply
    rw [Delivery.reply, hPerson] at hOrigin
    cases hOrigin

section Kept

variable (hSound : Sound env s) (hEvolves : Evolves env s s')

include hSound hEvolves

theorem expiry_kept (hFound : s'.deliveries.find k = some d) (hPerson : d.originInboxId = none) :
    d.sendExpiresAt.isSome := by
  rcases hEvolves.deliveries.origin hFound with ⟨-, hNew⟩ | ⟨y, hOld, hStep⟩
  · exact (hNew.of_person hPerson).2.2
  · rw [hStep.expiry]
    exact hSound.expiry k y hOld (hStep.origin.symm.trans hPerson)

theorem unconfirmed_kept (hFound : s'.deliveries.find k = some d) (hPerson : d.originInboxId = none)
    (hNone : d.confirmedAt = none) :
    d.state = .prepared ∨ d.state = .cancelled ∨ d.state = .expired := by
  rcases hEvolves.deliveries.origin hFound with ⟨-, hNew⟩ | ⟨y, hOld, hStep⟩
  · exact .inl (hNew.of_person hPerson).1
  · have hBefore := hSound.unconfirmed k y hOld (hStep.origin.symm.trans hPerson)
    -- only `confirms` leads out of these states, and it leaves a confirmation
    cases hStep with
    | stays | requeued => exact hBefore hNone
    | confirms => cases hNone
    | expires => exact .inr (.inr rfl)
    | cancels => exact .inr (.inl rfl)
    | sends attempt _ hReady | replies attempt _ hReady =>
      rcases hBefore hNone with hWas | hWas | hWas <;> rw [hWas] at hReady <;> cases hReady
    | finishes result hPending =>
      unfold Delivery.pending at hPending
      rcases hBefore hNone with hWas | hWas | hWas <;> rw [hWas] at hPending <;> cases hPending
    | givesUp hSending =>
      rcases hBefore hNone with hWas | hWas | hWas <;> rw [hWas] at hSending <;> cases hSending

variable {inboxId : Str}

theorem slots_kept (hFound : s'.deliveries.find k = some d)
    (hOrigin : d.originInboxId = some inboxId) : d.replySlot ≠ none := by
  rcases hEvolves.deliveries.origin hFound with ⟨-, hNew⟩ | ⟨y, hOld, hStep⟩
  · cases hNew with
    | person hPerson =>
      rw [hPerson] at hOrigin
      cases hOrigin
    | reply hReply =>
      intro hNone
      have hSlot := congrArg Prod.snd hReply
      rw [Delivery.reply, hNone] at hSlot
      cases hSlot
  · rw [hStep.slot]
    exact hSound.slots k y inboxId hOld (hStep.origin.symm.trans hOrigin)

variable {k' : Str}

section

variable (hFound : s'.deliveries.find k = some d)

include hFound

theorem replies_kept (hFound' : s'.deliveries.find k' = some d')
    (hOrigin : d.originInboxId = some inboxId) (hReply : d'.reply = d.reply) : k = k' := by
  rcases hEvolves.deliveries.origin hFound with ⟨-, hNew⟩ | ⟨y, hOld, hStep⟩
  · cases hNew with
    | person hPerson =>
      rw [hPerson] at hOrigin
      cases hOrigin
    | reply _ _ _ _ _ hOnly =>
      exact (lookup_key hFound).symm.trans (hOnly k' d' hFound' hReply).symm
  · rcases hEvolves.deliveries.origin hFound' with ⟨-, hNew⟩ | ⟨y', hOld', hStep'⟩
    · cases hNew with
      | person hPerson =>
        have hSame : d'.originInboxId = some inboxId := (congrArg Prod.fst hReply).trans hOrigin
        rw [hPerson] at hSame
        cases hSame
      | reply _ _ _ _ _ hOnly =>
        exact (hOnly k d hFound hReply.symm).trans (lookup_key hFound')
    · exact hSound.replies k k' y y' inboxId hOld hOld' (hStep.origin.symm.trans hOrigin)
        (hStep'.reply.symm.trans (hReply.trans hStep.reply))

theorem status_kept (hSlot : d.replySlot = some .groupStatus) : StatusCard env d := by
  rcases hEvolves.deliveries.origin hFound with ⟨-, hNew⟩ | ⟨y, hOld, hStep⟩
  · cases hNew with
    | person _ hNoSlot =>
      rw [hNoSlot] at hSlot
      cases hSlot
    | reply hReply _ _ _ hStatus =>
      have hSame := congrArg Prod.snd hReply
      rw [Delivery.reply, hSlot] at hSame
      exact hStatus (Option.some.inj hSame).symm
  · have hBefore : y.replySlot = some .groupStatus := hStep.slot.symm.trans hSlot
    rcases hStep.content with hSame | ⟨hPrivate, -⟩
    · obtain ⟨bot, conversation, delegate, hCard⟩ := hSound.status k y hOld hBefore
      exact ⟨bot, conversation, delegate, by rw [hSame, hStep.deliveryId, hCard]⟩
    · rw [hPrivate] at hBefore
      cases hBefore

theorem refused_kept (hReply : d.reply = (some inboxId, some .privateReply))
    (hRow : s'.inbox.find inboxId = some row) (hRefused : row.state = .refused) :
    RefusalCard env d := by
  rcases hEvolves.inbox.origin hRow with ⟨-, hQueued, -⟩ | ⟨before, hBefore, hInbox⟩
  · rw [hQueued] at hRefused
    cases hRefused
  · have hWas : before.state = .refused ∨ ∀ k d, s'.deliveries.find k = some d →
        d.reply = (some before.inboxId, some .privateReply) → RefusalCard env d := by
      cases hInbox with
      | stays => exact .inl hRefused
      | moves _ _ _ hNot => exact absurd hRefused hNot
      | refuses _ hAll => exact .inr hAll
    rcases hWas with hWas | hAll
    · -- the event was refused already, so it has got no new reply
      rcases hEvolves.deliveries.origin hFound with ⟨-, hNew⟩ | ⟨y, hOld, hStep⟩
      · cases hNew with
        | person hPerson =>
          have hOrigin := congrArg Prod.fst hReply
          rw [Delivery.reply, hPerson] at hOrigin
          cases hOrigin
        | reply hNewReply _ hAt hRunning =>
          have hSame := Option.some.inj (congrArg Prod.fst (hReply.symm.trans hNewReply))
          rw [← hSame, hBefore] at hAt
          cases hAt
          rw [hWas] at hRunning
          cases hRunning
      · rcases hStep.content with hSame | ⟨-, hCard⟩
        · obtain ⟨bot, user, hCard⟩ := hSound.refused k y inboxId before hOld
            (hStep.reply.symm.trans hReply) hBefore hWas
          exact ⟨bot, user, by rw [hSame, hStep.deliveryId, hCard]⟩
        · exact hCard
    · rw [lookup_key hBefore] at hAll
      exact hAll k d hFound hReply

end

theorem events_kept (hFound : s'.inbox.find k = some row) (hFound' : s'.inbox.find k' = some row')
    (hKey : row.key = row'.key) : k = k' := by
  rcases hEvolves.inbox.origin hFound with ⟨-, -, hOnly⟩ | ⟨y, hOld, hStep⟩
  · exact (lookup_key hFound).symm.trans (hOnly k' row' hFound' hKey.symm).symm
  · rcases hEvolves.inbox.origin hFound' with ⟨-, -, hOnly⟩ | ⟨y', hOld', hStep'⟩
    · exact (hOnly k row hFound hKey).trans (lookup_key hFound')
    · exact hSound.events k k' y y' hOld hOld' ((Inbox.key_of_fixed hStep.fixed).symm.trans
        (hKey.trans (Inbox.key_of_fixed hStep'.fixed)))

theorem grants_kept (hFound : s'.grants.find k = some g) (hFound' : s'.grants.find k' = some g')
    (hNone : g.revokedAt = none) (hNone' : g'.revokedAt = none) (hAgent : g.agentId = g'.agentId)
    (hGrantee : g.granteeBindingId = g'.granteeBindingId) : k = k' := by
  rcases hEvolves.grants.origin hFound with ⟨-, hOnly⟩ | ⟨y, hOld, hStep⟩
  · exact (lookup_key hFound).symm.trans
      (hOnly k' g' hFound' hNone' hAgent.symm hGrantee.symm).symm
  · rcases hEvolves.grants.origin hFound' with ⟨-, hOnly⟩ | ⟨y', hOld', hStep'⟩
    · exact (hOnly k g hFound hNone hAgent hGrantee).trans (lookup_key hFound')
    · obtain rfl := hStep.unrevoked hNone
      obtain rfl := hStep'.unrevoked hNone'
      exact hSound.grants k k' g g' hOld hOld' hNone hNone' hAgent hGrantee

theorem sound_step : Sound env s' where
  expiry _ _ := expiry_kept hSound hEvolves
  unconfirmed _ _ := unconfirmed_kept hSound hEvolves
  slots _ _ _ := slots_kept hSound hEvolves
  replies _ _ _ _ _ := replies_kept hSound hEvolves
  status _ _ := status_kept hSound hEvolves
  refused _ _ _ _ := refused_kept hSound hEvolves
  events _ _ _ _ := events_kept hSound hEvolves
  grants _ _ _ _ := grants_kept hSound hEvolves

end Kept

/-! ## What is never undone -/

/-- The terms of a grant are fixed; it may be revoked once and for all. -/
structure Grant.Later (g g' : Grant) : Prop where
  terms : { g' with revokedAt := none } = { g with revokedAt := none }
  revoked : g.revokedAt ≠ none → g'.revokedAt ≠ none

/-- A text is fixed; it may be withdrawn once and for all. -/
structure Material.Later (m m' : Material) : Prop where
  terms : { m' with withdrawnAt := none } = { m with withdrawnAt := none }
  withdrawn : m.withdrawnAt ≠ none → m'.withdrawnAt ≠ none

theorem GrantStep.later (hStep : GrantStep g g') : g.Later g' := by
  cases hStep with
  | stays => exact ⟨rfl, id⟩
  | revoked => exact ⟨rfl, nofun⟩

theorem MaterialStep.later {m m' : Material} (hStep : MaterialStep m m') : m.Later m' := by
  cases hStep with
  | stays => exact ⟨rfl, id⟩
  | withdrawn => exact ⟨rfl, nofun⟩

structure Later (s s' : State) : Prop where
  clock : s.clock ≤ s'.clock
  deliveries : s.deliveries.Evolves Delivery.Later (fun _ => True) s'.deliveries
  inbox : s.inbox.Evolves (fun row row' => row'.fixed = row.fixed) (fun _ => True) s'.inbox
  grants : s.grants.Evolves Grant.Later (fun _ => True) s'.grants
  materials : s.materials.Evolves Material.Later (fun _ => True) s'.materials

theorem Later.refl (s : State) : Later s s where
  clock := le_refl _
  deliveries := .refl Delivery.Later.refl
  inbox := .refl fun _ => rfl
  grants := .refl fun _ => ⟨rfl, id⟩
  materials := .refl fun _ => ⟨rfl, id⟩

theorem Later.trans {s₁ s₂ s₃ : State} (h₁ : Later s₁ s₂) (h₂ : Later s₂ s₃) : Later s₁ s₃ where
  clock := h₁.clock.trans h₂.clock
  deliveries := h₁.deliveries.trans Delivery.Later.trans (fun _ _ => trivial) h₂.deliveries
  inbox := h₁.inbox.trans (fun hFirst hThen => hThen.trans hFirst) (fun _ _ => trivial) h₂.inbox
  grants := by
    refine h₁.grants.trans (fun hFirst hThen => ?_) (fun _ _ => trivial) h₂.grants
    exact ⟨hThen.terms.trans hFirst.terms, fun hRevoked => hThen.revoked (hFirst.revoked hRevoked)⟩
  materials := by
    refine h₁.materials.trans (fun hFirst hThen => ?_) (fun _ _ => trivial) h₂.materials
    exact ⟨hThen.terms.trans hFirst.terms, fun hGone => hThen.withdrawn (hFirst.withdrawn hGone)⟩

theorem Evolves.later (hSound : Sound env s) (hEvolves : Evolves env s s') : Later s s' where
  clock := hEvolves.clock
  deliveries := hEvolves.deliveries.imp (fun _ _ _ hFound hStep => hStep.later hSound hFound)
    fun _ _ => trivial
  inbox := hEvolves.inbox.imp (fun _ _ _ _ hStep => hStep.fixed) fun _ _ => trivial
  grants := hEvolves.grants.imp (fun _ _ _ _ hStep => hStep.later) fun _ _ => trivial
  materials := hEvolves.materials.imp (fun _ _ _ _ hStep => hStep.later) fun _ _ => trivial

theorem sound_later {t : List State} (hRun : Lib.Run Unused (MsgStep env) (s :: t)) :
    ∀ x ∈ s :: t, Sound env x ∧ Later x s := by
  refine Lib.Run.mem_inv_rel (fun x hx => sound_unused hx) Later.refl Later.trans ?_ hRun
  intro x u x' hPast hStep
  have hSound := (hPast x List.mem_cons_self).1
  have hEvolves := hStep hSound
  exact ⟨sound_step hSound hEvolves, hEvolves.later hSound⟩

end EternalAI.Messaging
