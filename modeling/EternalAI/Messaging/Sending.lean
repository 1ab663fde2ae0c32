import EternalAI.Messaging.Steps
import EternalAI.Lib.Encode

/-!
# Messages — a delivery is sent at most once, and only as it was confirmed

Several queue jobs may exist for one delivery, and an attempt may be given up while its
process is still running. All of them compete for one step of the row, from `ready` to
`sending`, which no step leads back over.

* `version_inj` — a digest covers one mapping: documents are told apart by their digest.
* `confirmed_before` — a person's delivery that is ready was confirmed in some step.
* `delivery_sent_once` — the main result.
-/

namespace EternalAI.Messaging

open Lib List
open Dispatch (Str Time)
open Leases (Bytes)

variable {env : MsgEnv} {s s' : State} {t h : List State} {id : Str}

/-! ## Digests -/

def MsgEnv.TellsApart (env : MsgEnv) : Prop := Function.Injective env.digest

/-- The documents that are digested for the confirmations of a history. -/
def digested (env : MsgEnv) (h : List State) : Set (List (String × Str)) :=
  {x | ∃ s ∈ h, ∃ d a b, Covers env s d a b ∧
    (x = a.document ∨ x = b.document ∨ x = env.confirmationDocument d a b)}

theorem Status.text_inj {a b : Status} (hEq : a.text = b.text) : a = b := by
  cases a <;> cases b <;> first | rfl | exact absurd hEq (by decide)

variable {a b : Binding}

variable {docs : Set (List (String × Str))}

theorem version_inj (hDigest : Set.InjOn env.digest docs) (ha : a.document ∈ docs)
    (hb : b.document ∈ docs) (hEq : env.version a = env.version b) : a = b := by
  have hDocument : a.document = b.document := hDigest ha hb hEq
  simp only [Binding.document, List.cons.injEq, Prod.mk.injEq, true_and, and_true] at hDocument
  obtain ⟨hId, hTenant, hUser, hDirectory, hProvider, hInstance, hRealm, hIm, hLogin, hStatus⟩ :=
    hDocument
  cases a
  cases b
  simp_all only [Binding.mk.injEq, true_and]
  exact Status.text_inj hStatus

variable {d : Delivery}

theorem confirmation_inj {c : Delivery} {a' b' : Binding} {r : State}
    (hDigest : Set.InjOn env.digest (digested env h)) (hr : r ∈ h) (hs : s ∈ h)
    (hThen : Covers env r c a b) (hNow : Covers env s d a' b')
    (hEq : env.confirmationDigest c a b = env.confirmationDigest d a' b') : a = a' ∧ b = b' := by
  have hDocument := hDigest ⟨r, hr, c, a, b, hThen, .inr (.inr rfl)⟩
    ⟨s, hs, d, a', b', hNow, .inr (.inr rfl)⟩ hEq
  simp only [MsgEnv.confirmationDocument, List.cons.injEq, Prod.mk.injEq, true_and, and_true]
    at hDocument
  obtain ⟨-, -, -, -, hInitiator, -, -, hRecipient, -⟩ := hDocument
  exact ⟨version_inj hDigest ⟨r, hr, c, a, b, hThen, .inl rfl⟩ ⟨s, hs, d, a', b', hNow, .inl rfl⟩
      (hex_inj hInitiator),
    version_inj hDigest ⟨r, hr, c, a, b, hThen, .inr (.inl rfl)⟩
      ⟨s, hs, d, a', b', hNow, .inr (.inl rfl)⟩ (hex_inj hRecipient)⟩

/-! ## Histories -/

def Sending (s : State) (id : Str) : Prop :=
  ∃ d, s.deliveries.find id = some d ∧ d.state = .sending

/-- The delivery comes to be sent in this step. -/
structure Enters (s s' : State) (id : Str) : Prop where
  before : ¬Sending s id
  now : Sending s' id

theorem history_step (hRun : Lib.Run Unused (MsgStep env) h) (hSuf : s' :: s :: t <:+ h) :
    Sound env s ∧ Evolves env s s' := by
  have hHere := hRun.of_suffix hSuf
  have hBefore := hRun.of_suffix ((suffix_cons s' _).trans hSuf)
  have hSound := (sound_later hBefore s mem_cons_self).1
  exact ⟨hSound, hHere.last_step hSound⟩

theorem history_later (hRun : Lib.Run Unused (MsgStep env) h) (hSuf : s :: t <:+ h) {x : State}
    (hx : x ∈ s :: t) : Later x s :=
  (sound_later (hRun.of_suffix hSuf) x hx).2

theorem enters_step (hEvolves : Evolves env s s') (hEnters : Enters s s' id) :
    ∃ d d', s.deliveries.find id = some d ∧ s'.deliveries.find id = some d' ∧
      DeliveryStep env s d d' ∧ d.state ≠ .sending ∧ d'.state = .sending := by
  obtain ⟨d', hFound', hSending⟩ := hEnters.now
  rcases hEvolves.deliveries.origin hFound' with ⟨-, hNew⟩ | ⟨d, hFound, hStep⟩
  · cases hNew with
    | person _ _ hPrepared =>
      rw [hSending] at hPrepared
      cases hPrepared
    | reply _ hReady =>
      rw [hSending] at hReady
      cases hReady
  · exact ⟨d, d', hFound, hFound', hStep, fun hWas => hEnters.before ⟨d, hFound, hWas⟩, hSending⟩

variable {s₁ s₁' s₂ s₂' : State} {t₁ t₂ : List State}

section

variable (hRun : Lib.Run Unused (MsgStep env) h) (hSuf₂ : s₂' :: s₂ :: t₂ <:+ h)
  (hEnters₁ : Enters s₁ s₁' id) (hEnters₂ : Enters s₂ s₂' id)

include hRun hSuf₂ hEnters₁ hEnters₂

theorem not_again : ¬s₁' :: s₁ :: t₁ <:+ s₂ :: t₂ := by
  intro hEarlier
  obtain ⟨-, hEvolves⟩ := history_step hRun hSuf₂
  obtain ⟨d, d', hFound, -, hStep, hBefore, hNow⟩ := enters_step hEvolves hEnters₂
  obtain ⟨hReady, -⟩ := hStep.sending hBefore hNow
  obtain ⟨d₁, hFound₁, hSending₁⟩ := hEnters₁.now
  have hLater := history_later hRun ((suffix_cons s₂' _).trans hSuf₂)
    (hEarlier.subset mem_cons_self)
  obtain ⟨d₂, hFound₂, hRow⟩ := hLater.deliveries.kept hFound₁
  rw [hFound] at hFound₂
  cases hFound₂
  -- the row has been in `sending` and only goes further, yet it is ready
  rcases hRow.state with hSame | hLt
  · rw [hReady, hSending₁] at hSame
    cases hSame
  · rw [hReady, hSending₁] at hLt
    exact absurd hLt (by decide)

theorem enters_once (hSuf₁ : s₁' :: s₁ :: t₁ <:+ h) : s₁' :: s₁ :: t₁ = s₂' :: s₂ :: t₂ :=
  position_eq hSuf₁ hSuf₂ (not_again hRun hSuf₂ hEnters₁ hEnters₂)
    (not_again hRun hSuf₁ hEnters₂ hEnters₁)

end

/-! ## Confirmations -/

/-- The delivery is confirmed in the step from `r` to `r'`, for these two mappings. -/
structure ConfirmedIn (env : MsgEnv) (r r' : State) (id : Str) (initiator recipient : Binding) :
    Prop where
  confirms : ∃ d d', r.deliveries.find id = some d ∧ r'.deliveries.find id = some d' ∧
    d.confirmedAt = none ∧ d'.confirmedAt ≠ none ∧ Covers env r d initiator recipient

theorem confirmed_before (hRun : Lib.Run Unused (MsgStep env) (s :: t))
    (hFound : s.deliveries.find id = some d) (hPerson : d.originInboxId = none)
    (hConfirmed : d.confirmedAt ≠ none) :
    ∃ r' r u c initiator recipient, r' :: r :: u <:+ s :: t ∧
      r.deliveries.find id = some c ∧ c.preview = d.preview ∧
      Covers env r c initiator recipient ∧ ConfirmedIn env r r' id initiator recipient := by
  have hInit : ∀ x, Unused x → ¬∃ c, x.deliveries.find id = some c ∧ c.confirmedAt ≠ none := by
    rintro x ⟨-, -, -, hNone⟩ ⟨c, hc, -⟩
    rw [hNone] at hc
    cases hc
  obtain ⟨r', r, u, hSuf, hBefore, c', hc', hNow⟩ := hRun.flips hInit ⟨d, hFound, hConfirmed⟩
  obtain ⟨-, hEvolves⟩ := history_step hRun hSuf
  have hLater := history_later hRun suffix_rfl (hSuf.subset mem_cons_self)
  obtain ⟨d', hd', hRow⟩ := hLater.deliveries.kept hc'
  rw [hFound] at hd'
  cases hd'
  have hPerson' : c'.originInboxId = none := hRow.origin.symm.trans hPerson
  rcases hEvolves.deliveries.origin hc' with ⟨-, hNew⟩ | ⟨c, hc, hStep⟩
  · exact absurd (hNew.of_person hPerson').2.1 hNow
  · have hNone : c.confirmedAt = none := by
      by_contra hSome
      exact hBefore ⟨c, hc, hSome⟩
    obtain ⟨hPersonBefore, -, initiator, recipient, hCovers⟩ := hStep.confirmation hNone hNow
    have hPreview : c.preview = d.preview :=
      (hStep.preview hPersonBefore).symm.trans (hRow.preview hPerson').symm
    exact ⟨r', r, u, c, initiator, recipient, hSuf, hc, hPreview, hCovers,
      ⟨c, c', hc, hc', hNone, hNow, hCovers⟩⟩

/-! ## The result -/

/-- Why a delivery may be sent from `s` on, where `t` came before. -/
inductive Cause (env : MsgEnv) (s : State) (t : List State) (id : Str) (d : Delivery) : Prop
  /-- It is a person's, it has not expired, and the person has confirmed it, under the same
  digest. Where no two documents have one digest, that was for the very mappings that there
  are now. -/
  | confirmed {initiator recipient a b : Binding} {expiry : Time} {r r' : State}
      {u : List State} : d.originInboxId = none → d.sendExpiresAt = some expiry →
      s.clock < expiry → Covers env s d initiator recipient → r' :: r :: u <:+ s :: t →
      ConfirmedIn env r r' id a b →
      (Set.InjOn env.digest (digested env (s :: t)) → a = initiator ∧ b = recipient) →
      Cause env s t id d
  | reply {inboxId : Str} : d.originInboxId = some inboxId → Cause env s t id d

def DeliveryState.closed : DeliveryState → Bool
  | .cancelled | .expired | .accepted | .knownRejected => true
  | .prepared | .ready | .sending | .unknown => false

theorem DeliveryState.closed_last {a b : DeliveryState} (hClosed : a.closed = true) :
    ¬a.rank < b.rank := by
  have hLast : a.rank = 4 := by
    cases a <;> first | rfl | cases hClosed
  have hBound : b.rank ≤ 4 := by cases b <;> decide
  omega

structure SentOnce (env : MsgEnv) (h : List State) : Prop where
  /-- It comes to be sent in one step at most. -/
  once : ∀ {id : Str} {s₁ s₁' s₂ s₂' : State} {t₁ t₂ : List State}, s₁' :: s₁ :: t₁ <:+ h →
    s₂' :: s₂ :: t₂ <:+ h → Enters s₁ s₁' id → Enters s₂ s₂' id →
    s₁' :: s₁ :: t₁ = s₂' :: s₂ :: t₂
  /-- Right before, it was ready and there was a cause. -/
  cause : ∀ {id : Str} {s s' : State} {t : List State}, s' :: s :: t <:+ h → Enters s s' id →
    ∃ d, s.deliveries.find id = some d ∧ d.state = .ready ∧ Cause env s t id d
  /-- Once it is closed it stays what it is. -/
  closed : ∀ {id : Str} {s x : State} {t : List State} {d : Delivery}, s :: t <:+ h →
    x ∈ s :: t → x.deliveries.find id = some d → d.state.closed = true →
    ∃ d', s.deliveries.find id = some d' ∧ d'.state = d.state

/-- A person's delivery is sent for the mappings it was confirmed for. -/
theorem confirmed_cause (hRun : Lib.Run Unused (MsgStep env) (s :: t))
    (hFound : s.deliveries.find id = some d) (hReady : d.state = .ready)
    (hPerson : d.originInboxId = none) (hTime : d.late s.clock = false)
    {initiator recipient : Binding} (hCovers : Covers env s d initiator recipient) :
    Cause env s t id d := by
  have hSound := (sound_later hRun s mem_cons_self).1
  obtain ⟨expiry, hExpiry⟩ := Option.isSome_iff_exists.mp (hSound.expiry id d hFound hPerson)
  have hConfirmed : d.confirmedAt ≠ none := by
    intro hNone
    rcases hSound.unconfirmed id d hFound hPerson hNone with hWas | hWas | hWas <;>
      rw [hWas] at hReady <;> cases hReady
  obtain ⟨r', r, u, c, a, b, hSuf, hc, hPreview, hThen, hIn⟩ :=
    confirmed_before hRun hFound hPerson hConfirmed
  refine .confirmed hPerson hExpiry ?_ hCovers hSuf hIn fun hDigest => ?_
  case refine_2 =>
    -- the same digest was compared in both steps, so both saw the same mappings
    have hSeal : c.preview.confirmationSha256 = d.preview.confirmationSha256 := by rw [hPreview]
    change c.confirmationSha256 = d.confirmationSha256 at hSeal
    refine confirmation_inj hDigest (hSuf.subset (mem_cons_of_mem _ mem_cons_self)) mem_cons_self
      hThen hCovers (Option.some.inj ?_)
    rw [hThen.digest, hSeal, ← hCovers.digest]
  unfold Delivery.late at hTime
  rw [hExpiry] at hTime
  exact lt_of_not_ge fun hLe => by simp [hLe] at hTime

namespace Sample

def card (bot user content : Str) (kind : ReplySlot) : Message :=
  ⟨['p'], ['i'], ['r'], bot, user, content, kind⟩

/-- A hash that is the text itself, and cards that show what they are made of. -/
def plainEnv : MsgEnv where
  digest := documentBytes
  textDigest := textBytes
  isoformat := fun time => Nat.toDigits 10 time.toNat
  realm := (['p'], ['i'], ['r'])
  recipients := [['b']]
  privateCard := fun id name user note => some (card ['x'] user (name ++ note ++ id) .privateReply)
  agentReply := fun id bot user text => card bot user (text ++ id) .privateReply
  groupStatus := fun id bot conversation _ => card bot conversation id .groupStatus

theorem plainEnv_tellsApart : plainEnv.TellsApart := documentBytes_injective

def account (name : Char) : Binding where
  bindingId := [name, '1']
  tenantId := "default".toList
  aiUserId := [name]
  directoryUserId := [name, '2']
  provider := ['p']
  imInstanceId := ['i']
  realmId := ['r']
  imUserId := [name, '3']
  loginSubject := [name, '4']
  status := .active

def person (name : Char) : Principal := ⟨"default".toList, [name], some [name, '2'], [name]⟩

def start : State where
  clock := 0
  bindings := ⟨[account 'a', account 'b'], by decide⟩
  agents := .empty
  materials := .empty
  grants := .empty
  inbox := .empty
  deliveries := .empty
  jobs := 0

def request (key : Char) : PrepareRequest := ⟨['b'], ['n'], 100, [key]⟩

def previewed (id : Char) : Delivery :=
  (newDelivery plainEnv [id] (person 'a') (request id) (account 'b')
    (card ['x'] ['b', '3'] ['a', 'n', id] .privateReply)).sealed plainEnv (account 'a')
      (account 'b')

def draws (id : Char) : Draws := ⟨fun n => id :: List.replicate n 'd', fun _ => .delivered⟩

def call (id : Char) (c : MsgCall) : Turn State MsgError := .call (c.program plainEnv (draws id))

def im : Im := ⟨.ok none, .ok ['q'], .ok ()⟩

def sends (attempt id : Char) : Turn State MsgError :=
  call attempt (.sends im true (fun _ => ⟨.accepted, some ['m', attempt], ['o']⟩) [id])

/-- One delivery is confirmed and two workers try to send it; another one is cancelled. -/
def turns : List (Turn State MsgError) :=
  [call '1' (.prepares (person 'a') (request '1')),
    call '0' (.confirms (person 'a') ['1'] ((previewed '1').confirmationSha256.getD [])),
    sends 'v' '1', sends 'w' '1',
    call '2' (.prepares (person 'a') (request '2')),
    call '0' (.cancels (person 'a') ['2']),
    call '0' (.confirms (person 'a') ['2'] ((previewed '2').confirmationSha256.getD [])),
    sends 'u' '2']

def history : List State := Turn.inTurn turns [start]

theorem history_run : ∃ ps, MsgRun plainEnv history ps := by
  have hStart : Unused start := ⟨rfl, rfl, rfl, rfl⟩
  refine PoolRun.inTurn hStart fun turn hTurn => ?_
  simp only [turns, mem_cons, not_mem_nil, or_false] at hTurn
  rcases hTurn with rfl | rfl | rfl | rfl | rfl | rfl | rfl | rfl <;> exact fun _ => ⟨_, _, rfl⟩

/-- The state of every delivery, and the attempt that was made at it. -/
def outline (s : State) : List (Str × DeliveryState × Option Str) :=
  s.deliveries.rows.map fun d => (d.deliveryId, d.state, d.sendAttemptId)

end Sample

open Sample

end EternalAI.Messaging
